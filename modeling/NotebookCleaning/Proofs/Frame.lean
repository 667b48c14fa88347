import Mathlib.Data.List.Forall2
import NotebookCleaning.Proofs.CleanedCell
import NotebookCleaning.Proofs.CleanedDocument

/-!
# What cleaning leaves where it was

An edit of an object frames it if every old entry stands at its place afterwards, with its old value
unless its key is among those that the edit may touch. Putting a value under a key and changing the
value of a key frame an object, and so does one edit after the other (`Framed.trans`). Cleaning a
cell and cleaning a document are such sequences of edits; with the keys that they add, this says of
each entry where it is afterwards and which value it has.
-/

namespace NotebookCleaning

namespace Object

variable {touched wider : List String} {o p q : Object} {k : String}

/-- Every entry of `o` stands at its place in `p`, with its value unless its key is touched. -/
def Framed (touched : List String) (o p : Object) : Prop :=
  ∀ (i : Nat) (e : String × Json), o[i]? = some e →
    ∃ v, p[i]? = some (e.1, v) ∧ (e.1 ∉ touched → v = e.2)

theorem Framed.refl (touched : List String) (o : Object) : Framed touched o o :=
  fun _ e he => ⟨e.2, he, fun _ => rfl⟩

theorem Framed.trans (h : Framed touched o p) (h' : Framed touched p q) : Framed touched o q := by
  intro i e he
  obtain ⟨v, hv, hkept⟩ := h i e he
  obtain ⟨w, hw, hkept'⟩ := h' i (e.1, v) hv
  exact ⟨w, hw, fun hkey => (hkept' hkey).trans (hkept hkey)⟩

theorem Framed.mono (h : Framed touched o p) (hsub : touched ⊆ wider) : Framed wider o p := by
  intro i e he
  obtain ⟨v, hv, hkept⟩ := h i e he
  exact ⟨v, hv, fun hkey => hkept (mt (@hsub e.1) hkey)⟩

theorem framed_insert (hk : k ∈ touched) (v : Json) (o : Object) :
    Framed touched o (insert k v o) := by
  induction o with
  | nil => exact fun i e he => by simp at he
  | cons f fs ih =>
    obtain ⟨k', w⟩ := f
    intro i e he
    by_cases hkey : k' = k
    · rw [insert, if_pos hkey]
      cases i with
      | zero =>
        cases he
        exact ⟨v, by rw [← hkey]; rfl, fun hnot => absurd (hkey ▸ hk) hnot⟩
      | succ i => exact ⟨e.2, he, fun _ => rfl⟩
    · rw [insert, if_neg hkey]
      cases i with
      | zero => exact ⟨e.2, he, fun _ => rfl⟩
      | succ i => exact ih i e he

theorem framed_modify (hk : k ∈ touched) (f : Json → Json) (o : Object) :
    Framed touched o (modify k f o) := by
  intro i e he
  rw [modify, List.getElem?_map, he, Option.map_some]
  by_cases hkey : e.1 = k
  · rw [if_pos hkey]
    exact ⟨f e.2, rfl, fun hnot => absurd (hkey ▸ hk) hnot⟩
  · rw [if_neg hkey]
    exact ⟨e.2, rfl, fun _ => rfl⟩

end Object

open Object

namespace Json

/-- An object and what is left of it when its count is cleared. -/
structure CountCleared (o p : Object) : Prop where
  keys : keys p = keys o
  frame : Framed ["execution_count"] o p
  count : ∀ e ∈ p, e.1 = "execution_count" → e.2 = .null

/-- One of the outputs of a cell and what is left of it. -/
def OutputCleared : Json → Json → Prop
  | .obj o, w => ∃ p, w = .obj p ∧ CountCleared o p
  | v, w => w = v

/-- The value under `outputs` and what is left of it: an array keeps its items, in order. -/
def OutputsCleared : Json → Json → Prop
  | .arr items, w => ∃ items', w = .arr items' ∧ List.Forall₂ OutputCleared items items'
  | v, w => w = v

theorem outputCleared_clearCount (v : Json) : OutputCleared v (clearCount v) := by
  cases v with
  | obj o =>
    refine ⟨_, rfl, keys_modify _ _ o, framed_modify List.mem_cons_self _ o, ?_⟩
    intro e he hkey
    obtain ⟨f, -, rfl⟩ := List.mem_map.mp he
    by_cases hf : f.1 = "execution_count"
    · rw [if_pos hf]
    · rw [if_neg hf] at hkey
      exact absurd hkey hf
  | _ => rfl

theorem outputsCleared_clearCounts (v : Json) : OutputsCleared v (clearCounts v) := by
  cases v with
  | arr items =>
    refine ⟨_, rfl, ?_⟩
    rw [List.forall₂_map_right_iff, List.forall₂_same]
    exact fun v _ => outputCleared_clearCount v
  | _ => rfl

end Json

namespace Cell

variable (c : Config) (cell : Cell)

theorem isCode_iff : cell.isCode ↔ get? cell "cell_type" = some (.str "code") := by
  rw [isCode, cellType, decide_eq_true_eq]
  constructor
  · intro h
    unfold CellType.ofField at h
    split at h
    · next heq => exact heq
    all_goals cases h
  · intro h
    rw [h]
    rfl

/-- The fields that cleaning resets in a cell, in the order in which it adds them. -/
def resetKeys : List String :=
  (if cell.isCode && !c.preserveCounts then ["execution_count"] else []) ++
  (if cell.isCode && !c.preserveOutputs then ["outputs"] else []) ++
  if c.cellMetadata = .preserveAll then [] else ["metadata"]

variable {ks news : List String}

theorem mem_withKey_iff {k key : String} (hne : key ≠ k) : key ∈ withKey k ks ↔ key ∈ ks := by
  unfold withKey
  split
  · rfl
  · simp [hne]

/-- Keys that differ from each other are added one after the other as they are added at once. -/
theorem foldl_withKey (h : news.Nodup) :
    news.foldl (fun ks k => withKey k ks) ks = ks ++ news.filter (· ∉ ks) := by
  induction news generalizing ks with
  | nil => simp
  | cons k news ih =>
    obtain ⟨hk, hnews⟩ := List.nodup_cons.mp h
    have hrest : news.filter (· ∉ withKey k ks) = news.filter (· ∉ ks) := by
      refine List.filter_congr fun key hkey => ?_
      have hne : key ≠ k := fun heq => hk (heq ▸ hkey)
      simp only [mem_withKey_iff hne]
    rw [List.foldl_cons, ih hnews, hrest]
    by_cases hmem : k ∈ ks
    · rw [withKey, if_pos hmem, List.filter_cons_of_neg (by simpa using hmem)]
    · rw [withKey, if_neg hmem, List.filter_cons_of_pos (by simpa using hmem), List.append_assoc]
      rfl

theorem keys_clean_eq_append :
    keys (cell.clean c) = keys cell ++ (resetKeys c cell).filter (· ∉ keys cell) := by
  have hnodup : (resetKeys c cell).Nodup := by
    unfold resetKeys
    split_ifs <;> decide
  rw [← foldl_withKey hnodup, keys_clean, cleanKeys, resetKeys]
  split_ifs <;> rfl

theorem framed_cleanMetadata {touched : List String} (h : "metadata" ∈ touched)
    (p : MetadataPolicy) (o : Cell) : Framed touched o (cleanMetadata p o) := by
  cases p with
  | preserveAll => exact .refl _ o
  | strip => exact framed_insert h _ o
  | preserve fields => exact framed_insert h _ o

theorem framed_cleanCode : Framed ["execution_count", "outputs"] cell (cleanCode c cell) := by
  have hcount : Framed ["execution_count", "outputs"] cell (if c.preserveCounts then cell
      else insert "execution_count" .null cell) := by
    split
    · exact .refl _ cell
    · exact framed_insert (by decide) _ cell
  unfold cleanCode
  dsimp only
  split
  · exact hcount.trans (framed_insert (by decide) _ _)
  · split
    · exact hcount.trans (framed_modify (by decide) _ _)
    · exact hcount

theorem framed_clean :
    Framed ["execution_count", "outputs", "metadata"] cell (cell.clean c) := by
  have hcode : Framed ["execution_count", "outputs", "metadata"] cell
      (if cell.isCode then cleanCode c cell else cell) := by
    split
    · exact (framed_cleanCode c cell).mono (by decide)
    · exact .refl _ cell
  exact hcode.trans (framed_cleanMetadata (by decide) _ _)

theorem framed_clean_of_not_isCode (h : ¬cell.isCode) :
    Framed ["metadata"] cell (cell.clean c) := by
  rw [clean, if_neg h]
  exact framed_cleanMetadata List.mem_cons_self _ cell

/-- A cleaned cell has the old entries, each at its place, and behind them the fields that are reset
and were missing. Only the counts, the outputs and the metadata may have new values, and of these
only the metadata if the cell is no code cell. Outputs that are kept without their counts lose
nothing else, and metadata of which some fields are kept are the entries of these fields. -/
theorem clean_frame (c : Config) (cell : Cell) :
    keys (cell.clean c) = keys cell ++ (resetKeys c cell).filter (· ∉ keys cell) ∧
    Framed ["execution_count", "outputs", "metadata"] cell (cell.clean c) ∧
    (∀ key ∉ ["execution_count", "outputs", "metadata"],
      get? (cell.clean c) key = get? cell key) ∧
    (get? cell "cell_type" ≠ some (.str "code") →
      Framed ["metadata"] cell (cell.clean c) ∧
      ∀ key ∈ ["execution_count", "outputs"], get? (cell.clean c) key = get? cell key) ∧
    (get? cell "cell_type" = some (.str "code") → c.preserveOutputs → ¬c.preserveCounts →
      Option.Rel Json.OutputsCleared (get? cell "outputs") (get? (cell.clean c) "outputs")) ∧
    ∀ fields, c.cellMetadata = .preserve fields →
      get? (cell.clean c) "metadata" =
        some (.obj ((cell.metadata?.getD []).filter fun e => e.1 ∈ fields.fields)) := by
  refine ⟨keys_clean_eq_append c cell, framed_clean c cell, fun key hkey => ?_, fun htype => ?_,
    fun htype houtputs hcounts => ?_, fun fields hfields => ?_⟩
  · simp only [List.mem_cons, List.not_mem_nil, or_false, not_or] at hkey
    rw [get?_clean, cleanField_of_ne c _ _ hkey.1 hkey.2.1 hkey.2.2]
  · have hcode : ¬cell.isCode := mt cell.isCode_iff.mp htype
    have hfalse : cell.isCode = false := by simpa using hcode
    refine ⟨framed_clean_of_not_isCode c cell hcode, fun key hkey => ?_⟩
    rw [get?_clean, hfalse]
    rcases List.mem_pair.mp hkey with rfl | rfl
    · rw [cleanField_executionCount, Bool.false_and, if_neg Bool.false_ne_true]
    · rw [cleanField_outputs, Bool.false_and, Bool.false_and, if_neg Bool.false_ne_true,
        if_neg Bool.false_ne_true]
  · have hcode : cell.isCode = true := cell.isCode_iff.mpr htype
    have hclear : get? (cell.clean c) "outputs" =
        (get? cell "outputs").map Json.clearCounts := by
      simp [get?_clean, cleanField_outputs, hcode, houtputs, hcounts]
    rw [hclear]
    cases get? cell "outputs" with
    | none => exact .none
    | some v => exact .some (Json.outputsCleared_clearCounts v)
  · rw [get?_clean, cleanField_metadata, hfields, metadata?]
    simp [keptMetadata, restrict, FieldSet.contains, List.contains_eq_mem]

end Cell

namespace Json

/-- The description of a language and what is left of it when its version is taken away. -/
def VersionDropped : Json → Json → Prop
  | .obj info, w => w = .obj (info.filter fun e => e.1 != "version")
  | v, w => w = v

/-- The metadata of a document and what is left of them when the version of the language is taken
away. -/
structure MetadataCleared (m n : Object) : Prop where
  keys : keys n = keys m
  frame : Framed ["language_info"] m n
  info : Option.Rel VersionDropped (get? m "language_info") (get? n "language_info")

theorem versionDropped_erase (v : Json) : VersionDropped v (onObject (erase "version") v) := by
  cases v <;> rfl

theorem metadataCleared_modify (m : Object) :
    MetadataCleared m (modify "language_info" (onObject (erase "version")) m) where
  keys := keys_modify _ _ m
  frame := framed_modify List.mem_cons_self _ m
  info := by
    rw [get?_modify, if_pos rfl]
    cases get? m "language_info" with
    | none => exact .none
    | some v => exact .some (versionDropped_erase v)

end Json

namespace Notebook

variable (c : Config) (nb : Notebook)

theorem framed_cleanDocument {touched : List String} (h : "metadata" ∈ touched) (root : Object) :
    Framed touched root (cleanDocument c root) := by
  unfold cleanDocument
  split
  · exact framed_insert h _ root
  · split
    · exact .refl _ root
    · exact framed_modify h _ root

theorem framed_cleaned : Framed ["cells", "metadata"] nb.root (nb.cleaned c).root := by
  have hcells : Framed ["cells", "metadata"] nb.root (putCells (cleanCells c nb.cells) nb.root) :=
    framed_insert List.mem_cons_self _ nb.root
  exact hcells.trans (framed_cleanDocument c (by decide) _)

/-- The cleaned cells come from increasing places, which are those of the cells that are kept. -/
theorem exists_places (cells : List Cell) : ∃ places : List (Fin cells.length),
    places.Pairwise (· < ·) ∧
      (∀ i, i ∈ places ↔ ¬(c.removeEmptyCells ∧ cells[i].isBlank)) ∧
      cleanCells c cells = places.map fun i => cells[i].clean c := by
  refine ⟨(List.finRange cells.length).filter fun i => !(c.removeEmptyCells && cells[i].isBlank),
    (List.pairwise_lt_finRange _).filter _, fun i => ?_, ?_⟩
  · rw [List.mem_filter, ← Bool.and_eq_true, Bool.not_eq_true', Bool.not_eq_true]
    exact and_iff_right (List.mem_finRange i)
  · rw [cleanCells_eq, keptCells_eq_filter]
    conv_lhs => rw [← List.map_getElem_finRange cells]
    rw [List.filter_map, List.map_map]
    rfl

/-- A cleaned notebook has the entries of the old root, each at its place, and behind them the
metadata if they are removed and were missing. Only the cells and the metadata may have new values:
the cells are the kept ones, each of them cleaned, in their old order; the metadata are the old
ones, none, or the old ones without the version of the language. -/
theorem clean_document_frame {c : Config} (hc : c.Valid) (nb : Notebook) :
    ∃ after, nb.clean c = .ok after ∧
      keys after.root = keys nb.root ++
        (if c.removeNotebookMetadata ∧ "metadata" ∉ keys nb.root then ["metadata"] else []) ∧
      Framed ["cells", "metadata"] nb.root after.root ∧
      get? after.root "cells" = some (.arr (after.cells.map .obj)) ∧
      (∃ places : List (Fin nb.cells.length), places.Pairwise (· < ·) ∧
        (∀ i, i ∈ places ↔ ¬(c.removeEmptyCells ∧ nb.cells[i].isBlank)) ∧
        after.cells = places.map fun i => nb.cells[i].clean c) ∧
      (c.preserveNotebookMetadata → get? after.root "metadata" = get? nb.root "metadata") ∧
      (c.removeNotebookMetadata → get? after.root "metadata" = some (.obj [])) ∧
      (¬c.preserveNotebookMetadata → ¬c.removeNotebookMetadata →
        Option.Rel Json.MetadataCleared nb.metadata? after.metadata?) := by
  refine ⟨nb.cleaned c, clean_of_valid hc nb, ?_, framed_cleaned c nb, get?_cells _, ?_,
    fun hpreserve => ?_, fun hremove => ?_, fun hpreserve hremove => ?_⟩
  · rw [keys_cleaned]
    by_cases hremove : c.removeNotebookMetadata <;> by_cases hkey : "metadata" ∈ keys nb.root <;>
      simp [hremove, hkey, withKey]
  · rw [cells_cleaned]
    exact exists_places c nb.cells
  · have hremove : ¬c.removeNotebookMetadata := fun h => hc ⟨hpreserve, h⟩
    rw [get?_metadata_cleaned, cleanDocumentField, if_neg hremove, if_pos hpreserve]
  · rw [get?_metadata_cleaned, cleanDocumentField, if_pos hremove]
  · rw [metadata?_cleaned, if_neg hremove, if_neg hpreserve]
    cases nb.metadata? with
    | none => exact .none
    | some m => exact .some (Json.metadataCleared_modify m)

/-- A notebook whose cells come last, whose language has its version first, and of whose two cells
the first is blank. -/
def cellsLast : Notebook where
  root := [
    ("metadata", .obj [("language_info", .obj [("version", .str "3.9"), ("name", .str "go")]),
      ("title", .null)]),
    ("nbformat", .num "4"),
    ("cells", .arr [.obj [("source", .str " ")],
      .obj [("source", .str "a"), ("cell_type", .str "code"), ("outputs", .null)]])]
  shape := defect?_eq_none_iff.mp rfl

theorem clean_document_frame_cellsLast : Config.Valid { removeEmptyCells := true } ∧
    ∃ after, cellsLast.clean { removeEmptyCells := true } = .ok after ∧
      keys after.root = ["metadata", "nbformat", "cells"] ∧
      after.root[1]? = some ("nbformat", .num "4") ∧
      ∃ m, after.metadata? = some m ∧ keys m = ["language_info", "title"] ∧
        get? m "language_info" = some (.obj [("name", .str "go")]) := by
  have hvalid : Config.Valid { removeEmptyCells := true } := by decide
  obtain ⟨after, hclean, hkeys, hframe, -, -, -, -, hmetadata⟩ :=
    clean_document_frame hvalid cellsLast
  obtain ⟨v, hv, hkept⟩ := hframe 1 _ rfl
  rw [hkept (by decide)] at hv
  refine ⟨hvalid, after, hclean, hkeys, hv, ?_⟩
  have hcleared : Option.Rel Json.MetadataCleared (some _) after.metadata? :=
    hmetadata (by decide) (by decide)
  generalize after.metadata? = m? at hcleared ⊢
  cases hcleared with
  | @some _ m h =>
    refine ⟨m, rfl, h.keys, ?_⟩
    have hinfo : Option.Rel Json.VersionDropped (some _) (get? m "language_info") := h.info
    generalize get? m "language_info" = info? at hinfo ⊢
    cases hinfo with
    | some hdropped => rw [hdropped]; rfl

end Notebook

end NotebookCleaning
