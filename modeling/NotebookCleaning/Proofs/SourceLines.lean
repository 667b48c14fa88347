import NotebookCleaning.Proofs.CellByCell

/-!
# A source in lines and as one string

The source of a cell is one string or an array of lines. The characters of a joined source are
those of its lines, so it is blank exactly if every line is (`isBlank_join`), and nothing else that
a check or cleaning reads of a cell depends on its source (`findings_joinSource`,
`clean_joinSource`). Sources that are joined in any of the cells of a notebook leave its findings
and the choice of the cells that are dropped, and the cells that stay are the old ones with their
sources joined (`clean_and_check_joined`).
-/

namespace NotebookCleaning

open Object

theorem Blank.isBlank_join (ss : List String) :
    Blank.isBlank (String.join ss) = ss.all Blank.isBlank := by
  induction ss with
  | nil => rfl
  | cons s ss ih => rw [String.join_cons, Blank.isBlank_append, ih, List.all_cons]

namespace Source

def isTextLine : Json → Bool
  | .str _ | .null => true
  | _ => false

/-- A line that is null has no text. -/
def lineText : Json → String
  | .str s => s
  | _ => ""

/-- The single string with the text of all lines, if each of them is a string or null. -/
def join : Json → Json
  | .arr items =>
    if items.all isTextLine then .str (String.join (items.map lineText)) else .arr items
  | v => v

theorem isBlankLine_of_isTextLine {v : Json} (h : isTextLine v) :
    isBlankLine v = Blank.isBlank (lineText v) := by
  cases v with
  | str s => rfl
  | null => rfl
  | _ => cases h

theorem isBlank_join (v? : Option Json) :
    (ofField (v?.map join)).isBlank = (ofField v?).isBlank := by
  cases v? with
  | none => rfl
  | some v =>
    cases v with
    | arr items =>
      rw [Option.map_some, join]
      split
      · next htext =>
        have hline : ∀ v ∈ items, isBlankLine v = Blank.isBlank (lineText v) :=
          fun v hv => isBlankLine_of_isTextLine (List.all_eq_true.mp htext v hv)
        change Blank.isBlank (String.join (items.map lineText)) = items.all isBlankLine
        rw [Blank.isBlank_join, List.all_map, Bool.eq_iff_iff, List.all_eq_true, List.all_eq_true]
        exact forall₂_congr fun v hv => by rw [Function.comp_apply, hline v hv]
      · rfl
    | _ => rfl

end Source

namespace Cell

variable (c : Config) (cell : Cell)

/-- The cell with its source as one string. -/
def joinSource : Cell := modify "source" Source.join cell

theorem get?_joinSource {key : String} (hkey : key ≠ "source") :
    get? cell.joinSource key = get? cell key := by
  rw [joinSource, get?_modify, if_neg hkey]

@[simp] theorem isBlank_joinSource : cell.joinSource.isBlank = cell.isBlank := by
  rw [isBlank, source, joinSource, get?_modify, if_pos rfl, Source.isBlank_join]
  rfl

@[simp] theorem isCode_joinSource : cell.joinSource.isCode = cell.isCode := by
  rw [isCode, cellType, get?_joinSource cell (by decide), isCode, cellType]

@[simp] theorem metadata?_joinSource : cell.joinSource.metadata? = cell.metadata? := by
  rw [metadata?, get?_joinSource cell (by decide), metadata?]

theorem findings_joinSource : cell.joinSource.findings c = cell.findings c := by
  have hcount : executionCount? cell.joinSource = cell.executionCount? := by
    rw [executionCount?, get?_joinSource cell (by decide), executionCount?]
  have houtputs : get? cell.joinSource "outputs" = get? cell "outputs" :=
    get?_joinSource cell (by decide)
  have hcode : codeFindings c cell.joinSource = codeFindings c cell := by
    rw [codeFindings, hcount, hasOutputs, countedOutputs, houtputs]
    rfl
  rw [findings, isBlank_joinSource, isCode_joinSource, hcode, metadataFindings,
    metadata?_joinSource]
  rfl

theorem cleanCode_joinSource : cleanCode c cell.joinSource = (cleanCode c cell).joinSource := by
  have hinsert {key : String} (hkey : "source" ≠ key) (v : Json) (cell : Cell) :
      insert key v cell.joinSource = joinSource (insert key v cell) :=
    (modify_insert_of_ne hkey _ v cell).symm
  have hclear (cell : Cell) :
      clearOutputCounts cell.joinSource = (clearOutputCounts cell).joinSource :=
    modify_modify_of_ne (by decide) _ _ cell
  unfold cleanCode
  cases c.preserveCounts <;> cases c.preserveOutputs <;> simp [hinsert, hclear]

/-- It makes no difference whether a source is joined before the cell is cleaned or after it. -/
theorem clean_joinSource : cell.joinSource.clean c = (cell.clean c).joinSource := by
  have hcode : (if cell.joinSource.isCode then cleanCode c cell.joinSource else cell.joinSource) =
      joinSource (if cell.isCode then cleanCode c cell else cell) := by
    rw [isCode_joinSource, cleanCode_joinSource, apply_ite joinSource]
  rw [clean, hcode, clean]
  generalize (if cell.isCode then cleanCode c cell else cell) = cell
  cases c.cellMetadata with
  | preserveAll => rfl
  | strip => exact (modify_insert_of_ne (by decide) _ _ cell).symm
  | preserve fields =>
    rw [cleanMetadata, metadata?_joinSource]
    exact (modify_insert_of_ne (by decide) _ _ cell).symm

end Cell

namespace Notebook

variable (c : Config) (chosen : Nat → Bool) (cells : List Cell)

/-- The cells with the sources of the chosen ones as one string each. -/
def joinCells : List Cell :=
  cells.mapIdx fun i cell => if chosen i then cell.joinSource else cell

/-- A notebook with the sources of the chosen cells as one string each. -/
def joined (nb : Notebook) : Notebook := nb.withCells (joinCells chosen nb.cells)

/-- The cells that a configuration does not drop, each with its place. -/
def keptEntries : List (Cell × Nat) :=
  cells.zipIdx.filter fun e => !(c.removeEmptyCells && e.1.isBlank)

/-- The places of the cells that a configuration does not drop. -/
def keptPlaces : List Nat := (keptEntries c cells).map Prod.snd

theorem cleanCells_eq_map_keptEntries :
    cleanCells c cells = (keptEntries c cells).map fun e => e.1.clean c := by
  have hfilter (p : Cell → Bool) :
      cells.filter p = (cells.zipIdx.filter fun e => p e.1).map Prod.fst := by
    conv_lhs => rw [← List.zipIdx_map_fst 0 cells, List.filter_map]
    rfl
  have hkept : keptCells c cells = (keptEntries c cells).map Prod.fst := by
    rw [keptCells_eq_filter, hfilter, keptEntries]
  rw [cleanCells_eq, hkept, List.map_map]
  rfl

theorem getElem?_of_mem_keptEntries {e : Cell × Nat} (he : e ∈ keptEntries c cells) :
    cells[e.2]? = some e.1 :=
  List.mem_zipIdx_iff_getElem?.mp (List.mem_filter.mp he).1

/-- An entry with the source of its cell joined if its place is chosen. -/
def joinEntry (e : Cell × Nat) : Cell × Nat := (if chosen e.2 then e.1.joinSource else e.1, e.2)

theorem zipIdx_joinCells :
    (joinCells chosen cells).zipIdx = cells.zipIdx.map (joinEntry chosen) := by
  refine List.ext_getElem? fun i => ?_
  simp only [joinCells, List.getElem?_zipIdx, List.getElem?_mapIdx, List.getElem?_map,
    Option.map_map, Nat.zero_add]
  rfl

theorem isBlank_joinEntry (e : Cell × Nat) : (joinEntry chosen e).1.isBlank = e.1.isBlank := by
  rw [joinEntry]
  split
  · exact Cell.isBlank_joinSource e.1
  · rfl

theorem keptEntries_joinCells :
    keptEntries c (joinCells chosen cells) = (keptEntries c cells).map (joinEntry chosen) := by
  have hblank : (fun e : Cell × Nat => !(c.removeEmptyCells && e.1.isBlank)) ∘ joinEntry chosen =
      fun e => !(c.removeEmptyCells && e.1.isBlank) := by
    funext e
    rw [Function.comp_apply, isBlank_joinEntry]
  rw [keptEntries, zipIdx_joinCells, List.filter_map, hblank, keptEntries]

/-- The same cells are dropped, however their sources are cut into lines. -/
theorem keptPlaces_joinCells : keptPlaces c (joinCells chosen cells) = keptPlaces c cells := by
  rw [keptPlaces, keptEntries_joinCells, List.map_map]
  rfl

/-- Of the cells that stay those are joined that come from a chosen place. -/
theorem cleanCells_joinCells : cleanCells c (joinCells chosen cells) =
    joinCells (fun k => (keptPlaces c cells)[k]?.any chosen) (cleanCells c cells) := by
  have hentry (e : Cell × Nat) : (joinEntry chosen e).1.clean c =
      if chosen e.2 then (e.1.clean c).joinSource else e.1.clean c := by
    rw [joinEntry, ← Cell.clean_joinSource]
    split <;> rfl
  rw [cleanCells_eq_map_keptEntries, keptEntries_joinCells, cleanCells_eq_map_keptEntries,
    List.map_map]
  refine List.ext_getElem? fun k => ?_
  simp only [joinCells, keptPlaces, List.getElem?_mapIdx, List.getElem?_map]
  cases (keptEntries c cells)[k]? with
  | none => rfl
  | some e => exact congrArg some (hentry e)

theorem cellFindings_joinCells :
    cellFindings c (joinCells chosen cells) = cellFindings c cells := by
  have hentry (e : Cell × Nat) : (joinEntry chosen e).1.findings c = e.1.findings c := by
    rw [joinEntry]
    split
    · exact Cell.findings_joinSource c e.1
    · rfl
  rw [cellFindings, zipIdx_joinCells, List.flatMap_map]
  simp only [hentry]
  rfl

/-- Under a valid configuration a notebook and the same notebook with the sources of any chosen
cells joined have the same findings, lose the cells at the same places, and are cleaned alike: the
cleaned notebooks differ in that the sources of the cells from chosen places are joined. -/
theorem clean_and_check_joined {c : Config} (hc : c.Valid) (chosen : Nat → Bool) (nb : Notebook) :
    (∃ findings, nb.check c = .ok findings ∧ (nb.joined chosen).check c = .ok findings) ∧
      keptPlaces c (nb.joined chosen).cells = keptPlaces c nb.cells ∧
      ∃ after, nb.clean c = .ok after ∧
        after.cells.map some =
          (keptPlaces c nb.cells).map (fun i => nb.cells[i]?.map (Cell.clean c)) ∧
        (nb.joined chosen).clean c =
          .ok (after.joined fun k => (keptPlaces c nb.cells)[k]?.any chosen) := by
  refine ⟨⟨_, check_of_valid hc nb, ?_⟩, ?_, nb.cleaned c, clean_of_valid hc nb, ?_, ?_⟩
  · rw [joined, check_withCells hc, cellFindings_joinCells]
    rfl
  · rw [joined, cells_withCells, keptPlaces_joinCells]
  · rw [cells_cleaned, cleanCells_eq_map_keptEntries, keptPlaces, List.map_map, List.map_map]
    refine List.map_congr_left fun e he => ?_
    rw [Function.comp_apply, Function.comp_apply, getElem?_of_mem_keptEntries c nb.cells he]
    rfl
  · rw [joined, clean_withCells hc, cleanCells_joinCells, joined, cells_cleaned]

/-- A notebook with a blank cell before a code cell, the sources of both cut into lines. -/
def cutSources : Notebook where
  root := [
    ("cells", .arr [
      .obj [("cell_type", .str "markdown"), ("source", .arr [.str " \n", .null, .str ""])],
      .obj [("cell_type", .str "code"), ("source", .arr [.str "x = 1\n", .null, .str "x"]),
        ("execution_count", .num "3")]])]
  shape := defect?_eq_none_iff.mp rfl

theorem clean_and_check_joined_cutSources : Config.Valid { removeEmptyCells := true } ∧
    ∃ after, cutSources.clean { removeEmptyCells := true } = .ok after ∧
      after.cells.map (get? · "source") = [some (.arr [.str "x = 1\n", .null, .str "x"])] ∧
      (cutSources.joined fun _ => true).clean { removeEmptyCells := true } =
        .ok (after.joined fun k => [1][k]?.any fun _ => true) := by
  have hvalid : Config.Valid { removeEmptyCells := true } := by decide
  obtain ⟨-, -, after, hclean, hcells, hjoined⟩ :=
    clean_and_check_joined hvalid (fun _ => true) cutSources
  have hplaces : keptPlaces { removeEmptyCells := true } cutSources.cells = [1] := by decide
  rw [hplaces] at hcells hjoined
  have hsources :=
    congrArg (List.map fun cell? : Option Cell => cell?.bind (get? · "source")) hcells
  rw [List.map_map] at hsources
  exact ⟨hvalid, after, hclean, hsources, hjoined⟩

end Notebook

end NotebookCleaning
