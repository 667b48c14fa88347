import NotebookCleaning.Proofs.CleanedDocument
import NotebookCleaning.Proofs.DistinctKeys
import NotebookCleaning.Proofs.Printing

/-!
# Cells are processed one by one

A notebook is taken as its root with any list of cells in it. What cleaning makes of the list is
made cell by cell, the rest of the root does not depend on it (`cleaned_withCells`), and what a
check finds is found cell by cell, with indices that count from the first cell
(`cellFindings_append`). So putting two lists of cells together puts their cleaned cells and their
findings together, and a cell in the middle adds its own text and its own findings and moves those
behind it (`clean_and_check_append`).
-/

namespace NotebookCleaning

open Object

namespace Json.Printer

variable (opening closing : Char) (inside outside : Nat)

theorem following_append (sep : List Char) (ps qs : List (List Char)) :
    following sep (ps ++ qs) = following sep ps ++ following sep qs :=
  List.flatMap_append

/-- One more part in a bracketed list of parts brings its own text and what separates it. -/
theorem exists_bracketed_insert (ps qs : List (List Char)) : ∃ head before behind tail,
    bracketed opening closing inside outside (ps ++ qs) = head ++ tail ∧
      ∀ p, bracketed opening closing inside outside (ps ++ p :: qs) =
        head ++ (before ++ p ++ behind) ++ tail := by
  simp only [bracketed_eq_cons]
  cases ps with
  | cons p' ps =>
    exact ⟨opening :: (newline inside ++ (p' ++ following (newline inside) ps)),
      ',' :: newline inside, [], following (newline inside) qs ++ (newline outside ++ [closing]),
      by simp [body, following_append], fun p => by simp [body, following_append, following_cons]⟩
  | nil =>
    cases qs with
    | nil =>
      exact ⟨[opening], newline inside, newline outside, [closing], rfl,
        fun p => by simp [body, following]⟩
    | cons q qs =>
      exact ⟨[opening], newline inside, [','], body closing inside outside (q :: qs), rfl,
        fun p => by simp [body, following_cons]⟩

end Json.Printer

namespace Finding

/-- The finding of a cell that stands `n` places further down. -/
def shift (n : Nat) : Finding → Finding
  | inCell i what => inCell (i + n) what
  | finding => finding

theorem shift_shift (m n : Nat) (f : Finding) : (f.shift m).shift n = f.shift (n + m) := by
  cases f with
  | inCell i what => rw [shift, shift, shift, Nat.add_assoc, Nat.add_comm m n]
  | _ => rfl

end Finding

namespace Notebook

variable (c : Config) (nb : Notebook) (cells : List Cell)

/-- The text of a cell within the text of a notebook. -/
def cellText (cell : Cell) : String := String.ofList (Json.Printer.pretty 1 2 (.obj cell))

/-- The notebook with other cells. -/
def withCells : Notebook where
  root := putCells cells nb.root
  shape := nb.shape.putCells cells

theorem get?_withCells (key : String) : get? (nb.withCells cells).root key =
    if key = "cells" then some (.arr (cells.map .obj)) else get? nb.root key :=
  get?_insert nb.root "cells" key _

@[simp] theorem cells_withCells : (nb.withCells cells).cells = cells :=
  cells_of_get? (by rw [get?_withCells, if_pos rfl])

theorem withCells_withCells (cells' : List Cell) :
    (nb.withCells cells).withCells cells' = nb.withCells cells' :=
  ext_of_root (insert_insert _ _ _ nb.root)

@[simp] theorem metadata?_withCells : (nb.withCells cells).metadata? = nb.metadata? := by
  rw [metadata?, get?_withCells, if_neg (by decide), metadata?]

@[simp] theorem languageVersion?_withCells :
    (nb.withCells cells).languageVersion? = nb.languageVersion? := by
  rw [languageVersion?, metadata?_withCells, languageVersion?]

theorem documentFindings_withCells :
    documentFindings c (nb.withCells cells) = documentFindings c nb := by
  simp only [documentFindings, metadata?_withCells, languageVersion?_withCells]

/-- The cells of a root and the metadata of its document are cleaned independently. -/
theorem putCells_cleanDocument {root : Object} (h : "cells" ∈ keys root) :
    putCells cells (cleanDocument c root) = cleanDocument c (putCells cells root) := by
  unfold cleanDocument
  split
  · exact insert_insert_of_ne (by decide) h _ _
  · split
    · rfl
    · exact (modify_insert_of_ne (by decide) _ _ root).symm

/-- Other cells change nothing in a cleaned notebook but its cells. -/
theorem cleaned_withCells :
    (nb.withCells cells).cleaned c = (nb.cleaned c).withCells (cleanCells c cells) := by
  have hcells {cells : List Cell} : "cells" ∈ keys (putCells cells nb.root) := by
    rw [keys_putCells]
    exact mem_keys_of_get? nb.get?_cells
  have hput (cells cells' : List Cell) :
      putCells cells (putCells cells' nb.root) = putCells cells nb.root :=
    insert_insert _ _ _ nb.root
  apply ext_of_root
  change cleanDocument c (putCells (cleanCells c (nb.withCells cells).cells)
      (putCells cells nb.root)) =
    putCells (cleanCells c cells) (cleanDocument c (putCells (cleanCells c nb.cells) nb.root))
  rw [cells_withCells, hput, putCells_cleanDocument c _ hcells, hput]

theorem cleanCells_append (xs ys : List Cell) :
    cleanCells c (xs ++ ys) = cleanCells c xs ++ cleanCells c ys := by
  simp only [cleanCells_eq, keptCells_eq_filter, List.filter_append, List.map_append]

theorem cleanCells_singleton (cell : Cell) : cleanCells c [cell] =
    if c.removeEmptyCells && cell.isBlank then [] else [cell.clean c] := by
  rw [cleanCells_eq, keptCells_eq_filter, List.filter_singleton]
  cases c.removeEmptyCells && cell.isBlank <;> rfl

/-- What a check finds in a list of cells. -/
def cellFindings : List Finding :=
  cells.zipIdx.flatMap fun cell => (cell.1.findings c).map (.inCell cell.2)

theorem mem_cellFindings {f : Finding} (hf : f ∈ cellFindings c cells) :
    ∃ i what, i < cells.length ∧ f = .inCell i what := by
  obtain ⟨⟨cell, i⟩, hcell, hf⟩ := List.mem_flatMap.mp hf
  obtain ⟨what, -, rfl⟩ := List.mem_map.mp hf
  exact ⟨i, what, List.snd_lt_of_mem_zipIdx hcell, rfl⟩

theorem mem_documentFindings {f : Finding} (hf : f ∈ documentFindings c nb) :
    f = .notebookMetadata ∨ f = .languageVersion := by
  unfold documentFindings at hf
  split at hf
  · split at hf
    · exact .inl (List.mem_singleton.mp hf)
    · cases hf
  · split at hf
    · split at hf
      · exact .inr (List.mem_singleton.mp hf)
      · cases hf
    · cases hf

theorem findings_withCells : (nb.withCells cells).findings c =
    cellFindings c cells ++ documentFindings c nb := by
  rw [findings, cells_withCells, documentFindings_withCells]
  rfl

theorem cellFindings_append (xs ys : List Cell) : cellFindings c (xs ++ ys) =
    cellFindings c xs ++ (cellFindings c ys).map (.shift xs.length) := by
  have hplaces : ys.zipIdx (0 + xs.length) = ys.zipIdx.map (Prod.map id (· + xs.length)) := by
    rw [List.map_snd_add_zipIdx_eq_zipIdx, Nat.add_comm]
  simp only [cellFindings, List.zipIdx_append, List.flatMap_append, hplaces, List.flatMap_map,
    List.map_flatMap, List.map_map, Prod.map_fst, Prod.map_snd, id_eq]
  rfl

theorem cellFindings_singleton (cell : Cell) :
    cellFindings c [cell] = (cell.findings c).map (.inCell 0) :=
  List.append_nil _

/-- A cell between others has its own findings, and those behind it are found one place further
down. -/
theorem cellFindings_middle (xs ys : List Cell) (cell : Cell) : cellFindings c (xs ++ cell :: ys) =
    cellFindings c xs ++ (cell.findings c).map (.inCell xs.length) ++
      (cellFindings c ys).map (.shift (xs.length + 1)) := by
  have hcons : cell :: ys = [cell] ++ ys := rfl
  rw [hcons, cellFindings_append, cellFindings_append, cellFindings_singleton, List.map_append,
    List.map_map, List.map_map, List.append_assoc]
  congr 2
  · refine List.map_congr_left fun what _ => ?_
    simp [Finding.shift]
  · refine List.map_congr_left fun f _ => ?_
    exact f.shift_shift 1 xs.length

theorem cleanCells_middle (xs ys : List Cell) (cell : Cell) : cleanCells c (xs ++ cell :: ys) =
    if c.removeEmptyCells && cell.isBlank then cleanCells c xs ++ cleanCells c ys
    else cleanCells c xs ++ cell.clean c :: cleanCells c ys := by
  have hcons : cell :: ys = [cell] ++ ys := rfl
  rw [hcons, cleanCells_append, cleanCells_append, cleanCells_singleton]
  split <;> rfl

/-- The text of a notebook around the list of its cells. -/
theorem exists_text_withCells : ∃ head tail : List Char, ∀ cells,
    (nb.withCells cells).text.toList = head ++ Json.Printer.bracketed '[' ']' 2 1
      (cells.map fun cell => Json.Printer.pretty 1 2 (.obj cell)) ++ tail := by
  obtain ⟨front, back, hroot⟩ := exists_insert_eq_append (mem_keys_of_get? nb.get?_cells)
  obtain ⟨head, before, behind, tail, -, hparts⟩ := Json.Printer.exists_bracketed_insert
    '\x7b' '\x7d' 1 0 (front.map (Json.Printer.entry (Json.Printer.pretty 1 1)))
    (back.map (Json.Printer.entry (Json.Printer.pretty 1 1)))
  refine ⟨head ++ before ++ (Json.Printer.quoted "cells" ++ [':', ' ']), behind ++ tail ++ ['\n'],
    fun cells => ?_⟩
  have htext : (nb.withCells cells).text.toList =
      Json.Printer.pretty 1 0 (.obj (insert "cells" (.arr (cells.map .obj)) nb.root)) ++
        ['\n'] := by
    rw [text, String.toList_append, Json.render, String.toList_ofList]
    rfl
  rw [htext, hroot, Json.Printer.pretty_obj, List.map_append, List.map_cons, hparts,
    Json.Printer.entry, Json.Printer.pretty_arr, List.map_map]
  simp only [List.append_assoc]
  rfl

/-- One more cell brings its own text and what separates it from its neighbours. -/
theorem exists_text_insert (xs ys : List Cell) : ∃ head before behind tail : String,
    (nb.withCells (xs ++ ys)).text = head ++ tail ∧
      ∀ cell, (nb.withCells (xs ++ cell :: ys)).text =
        head ++ (before ++ cellText cell ++ behind) ++ tail := by
  obtain ⟨head, tail, htext⟩ := exists_text_withCells nb
  obtain ⟨head', before, behind, tail', hwithout, hwith⟩ := Json.Printer.exists_bracketed_insert
    '[' ']' 2 1 (xs.map fun cell => Json.Printer.pretty 1 2 (.obj cell))
    (ys.map fun cell => Json.Printer.pretty 1 2 (.obj cell))
  refine ⟨.ofList (head ++ head'), .ofList before, .ofList behind, .ofList (tail' ++ tail),
    ?_, fun cell => ?_⟩
  · rw [← String.toList_inj, htext, List.map_append, hwithout]
    simp
  · rw [← String.toList_inj, htext, List.map_append, List.map_cons, hwith]
    simp [cellText]

theorem clean_withCells {c : Config} (hc : c.Valid) (nb : Notebook) (cells : List Cell) :
    (nb.withCells cells).clean c = .ok ((nb.cleaned c).withCells (cleanCells c cells)) := by
  rw [clean_of_valid hc, cleaned_withCells]

theorem check_withCells {c : Config} (hc : c.Valid) (nb : Notebook) (cells : List Cell) :
    (nb.withCells cells).check c = .ok (cellFindings c cells ++ documentFindings c nb) := by
  rw [check_of_valid hc, findings_withCells]

/-- Under a valid configuration two lists of cells in one root are cleaned and checked apart from
each other. Together they give their cleaned cells one after the other, in the same root, and their
findings one after the other, those of the second list counted on from the first, with the same
findings of the document behind them. A cell that stands between the lists adds its own text, unless
it is dropped, and its own findings, and moves the findings behind it one place down. -/
theorem clean_and_check_append {c : Config} (hc : c.Valid) (nb : Notebook) (xs ys : List Cell) :
    (∃ front back whole, (nb.withCells xs).clean c = .ok front ∧
        (nb.withCells ys).clean c = .ok back ∧ (nb.withCells (xs ++ ys)).clean c = .ok whole ∧
        whole.cells = front.cells ++ back.cells ∧
        whole = front.withCells whole.cells ∧ whole = back.withCells whole.cells) ∧
      (∃ fs gs document, (nb.withCells xs).check c = .ok (fs ++ document) ∧
        (nb.withCells ys).check c = .ok (gs ++ document) ∧
        (nb.withCells (xs ++ ys)).check c = .ok (fs ++ gs.map (.shift xs.length) ++ document) ∧
        (∀ cell, (nb.withCells (xs ++ cell :: ys)).check c =
          .ok (fs ++ (cell.findings c).map (.inCell xs.length) ++
            gs.map (.shift (xs.length + 1)) ++ document)) ∧
        (∀ f ∈ fs, ∃ i what, i < xs.length ∧ f = .inCell i what) ∧
        (∀ f ∈ gs, ∃ i what, i < ys.length ∧ f = .inCell i what) ∧
        ∀ f ∈ document, f = .notebookMetadata ∨ f = .languageVersion) ∧
      ∃ head before behind tail : String,
        (∃ whole, (nb.withCells (xs ++ ys)).clean c = .ok whole ∧ whole.text = head ++ tail) ∧
        ∀ cell, ∃ whole, (nb.withCells (xs ++ cell :: ys)).clean c = .ok whole ∧
          whole.text = if c.removeEmptyCells && cell.isBlank then head ++ tail
            else head ++ (before ++ cellText (cell.clean c) ++ behind) ++ tail := by
  refine ⟨⟨_, _, _, clean_withCells hc nb xs, clean_withCells hc nb ys,
    clean_withCells hc nb (xs ++ ys), ?_, ?_, ?_⟩, ⟨cellFindings c xs, cellFindings c ys,
    documentFindings c nb, check_withCells hc nb xs, check_withCells hc nb ys, ?_, fun cell => ?_,
    fun f => mem_cellFindings c xs, fun f => mem_cellFindings c ys,
    fun f => mem_documentFindings c nb⟩, ?_⟩
  · simp only [cells_withCells, cleanCells_append]
  · rw [withCells_withCells, cells_withCells]
  · rw [withCells_withCells, cells_withCells]
  · rw [check_withCells hc, cellFindings_append]
  · rw [check_withCells hc, cellFindings_middle]
  · obtain ⟨head, before, behind, tail, hwithout, hwith⟩ :=
      exists_text_insert (nb.cleaned c) (cleanCells c xs) (cleanCells c ys)
    refine ⟨head, before, behind, tail, ⟨_, clean_withCells hc nb (xs ++ ys), ?_⟩,
      fun cell => ⟨_, clean_withCells hc nb (xs ++ cell :: ys), ?_⟩⟩
    · rw [cleanCells_append, hwithout]
    · rw [cleanCells_middle]
      split
      · exact hwithout
      · exact hwith _

theorem clean_and_check_append_oddShapes : Config.Valid { removeEmptyCells := true } ∧
    (∃ front back whole,
      (oddShapes.withCells oddShapes.cells).clean { removeEmptyCells := true } = .ok front ∧
      (oddShapes.withCells [[]]).clean { removeEmptyCells := true } = .ok back ∧
      (oddShapes.withCells (oddShapes.cells ++ [[]])).clean { removeEmptyCells := true } =
        .ok whole ∧
      whole.cells = front.cells ++ back.cells) ∧
    ∃ fs gs document : List Finding,
      (oddShapes.withCells oddShapes.cells).check { removeEmptyCells := true } =
        .ok (fs ++ document) ∧
      (oddShapes.withCells [[]]).check { removeEmptyCells := true } = .ok (gs ++ document) ∧
      (oddShapes.withCells (oddShapes.cells ++ [[]])).check { removeEmptyCells := true } =
        .ok (fs ++ gs.map (.shift 3) ++ document) := by
  have hvalid : Config.Valid { removeEmptyCells := true } := by decide
  obtain ⟨⟨front, back, whole, hfront, hback, hwhole, hcells, -⟩,
    ⟨fs, gs, document, hfs, hgs, happend, -⟩, -⟩ :=
    clean_and_check_append hvalid oddShapes oddShapes.cells [[]]
  exact ⟨hvalid, ⟨front, back, whole, hfront, hback, hwhole, hcells⟩, fs, gs, document, hfs, hgs,
    happend⟩

end Notebook

end NotebookCleaning
