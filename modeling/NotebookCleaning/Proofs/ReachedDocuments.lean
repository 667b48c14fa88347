import NotebookCleaning.Proofs.CellByCell
import NotebookCleaning.Proofs.CleanedKeys
import NotebookCleaning.Proofs.RoundTrip

/-!
# Documents that reading and cleaning reach

A document is a bare root: nothing says that it has cells, or that its cells are objects.
`Document.clean` cleans such a root by its look-ups alone and has a `Fallback` for what has not the
shape of a notebook. Where the shape is there the fallback makes no difference
(`Document.clean_root`), and the shape is there in every document that is reached by reading,
cleaning and writing (`Document.Reached.exists_notebook`), so no cell of it is passed over and the
indices of findings are places in its array of cells.
-/

namespace NotebookCleaning.Document

open Object Notebook

/-- What becomes of a cell that is no object, and of a root that has no array of cells. -/
structure Fallback where
  cell : Json → Option Json
  root : Object → Object

def Fallback.leave : Fallback := ⟨some, id⟩

def cleanItem (b : Fallback) (c : Config) : Json → Option Json
  | .obj cell =>
    if c.removeEmptyCells && Cell.isBlank cell then none else some (.obj (Cell.clean c cell))
  | v => b.cell v

/-- Cleaning of a root whose shape nobody has judged. -/
def clean (b : Fallback) (c : Config) (root : Object) : Object :=
  cleanDocument c <|
    match get? root "cells" with
    | some (.arr items) => insert "cells" (.arr (items.filterMap (cleanItem b c))) root
    | _ => b.root root

def text (root : Object) : String := (Json.obj root).render 1 ++ "\n"

/-- The roots of the documents that come from values without repeated keys or from texts, with any
number of cleanings and re-readings behind it. -/
inductive Reached (b : Fallback) : Object → Prop where
  | taken {v : Json} {nb : Notebook} : v.distinctKeys → ofJson? v = .ok nb → Reached b nb.root
  | read {bs : List UInt8} {nb : Notebook} : ofOctets? bs = .ok nb → Reached b nb.root
  | cleaned {root : Object} (c : Config) : c.Valid → Reached b root → Reached b (clean b c root)
  | reread {root : Object} {nb : Notebook} :
      Reached b root → ofText? (text root) = .ok nb → Reached b nb.root

variable {b : Fallback} {root : Object}

theorem filterMap_cleanItem (b : Fallback) (c : Config) (cells : List Cell) :
    (cells.map .obj).filterMap (cleanItem b c) = (cleanCells c cells).map .obj := by
  induction cells with
  | nil => rw [cleanCells_eq, keptCells_eq_filter]; rfl
  | cons cell cells ih =>
    have hcells : cleanCells c (cell :: cells) = cleanCells c [cell] ++ cleanCells c cells :=
      cleanCells_append c [cell] cells
    rw [List.map_cons, List.filterMap_cons, ih, hcells, cleanCells_singleton, cleanItem]
    by_cases hdropped : c.removeEmptyCells && cell.isBlank
    · simp only [if_pos hdropped, List.nil_append]
    · simp only [if_neg hdropped, List.cons_append, List.nil_append, List.map_cons]

theorem clean_root (b : Fallback) (c : Config) (nb : Notebook) :
    clean b c nb.root = (nb.cleaned c).root := by
  have hget := nb.get?_cells
  unfold clean
  rw [hget]
  dsimp only
  rw [filterMap_cleanItem]
  rfl

/-- A document that is reached is a notebook without repeated keys. -/
theorem Reached.exists_notebook (h : Reached b root) :
    ∃ nb : Notebook, nb.root = root ∧ nb.DistinctKeys := by
  induction h with
  | @taken v nb hkeys hv =>
    rw [← toJson_of_ofJson? hv] at hkeys
    exact ⟨nb, rfl, hkeys⟩
  | @read bs nb hread => exact ⟨nb, rfl, distinctKeys_of_ofOctets? hread⟩
  | cleaned c _ _ ih =>
    obtain ⟨nb, rfl, hkeys⟩ := ih
    exact ⟨nb.cleaned c, (clean_root b c nb).symm, hkeys.cleaned c⟩
  | @reread root nb _ hread _ => exact ⟨nb, rfl, distinctKeys_of_ofOctets? hread⟩

/-- A root has the shape of a notebook just if it is accepted as one and comes back unchanged. -/
theorem shape_iff_ofJson? :
    Shape root ↔ ∃ nb, ofJson? (.obj root) = .ok nb ∧ nb.toJson = .obj root := by
  constructor
  · intro h
    exact ⟨⟨root, h⟩, ofJson?_toJson ⟨root, h⟩, rfl⟩
  · rintro ⟨nb, -, hroot⟩
    cases hroot
    exact nb.shape

/-- What is found in a cell has the index of the cell's place. -/
theorem mem_findings_iff {c : Config} {nb : Notebook} {i : Nat} {what : CellFinding} :
    .inCell i what ∈ nb.findings c ↔ ∃ cell, nb.cells[i]? = some cell ∧ what ∈ cell.findings c := by
  have hdocument : .inCell i what ∉ documentFindings c nb := by
    intro h
    rcases mem_documentFindings c nb h with heq | heq <;> cases heq
  rw [findings, List.mem_append, or_iff_left hdocument, List.mem_flatMap]
  constructor
  · rintro ⟨⟨cell, j⟩, hcell, h⟩
    obtain ⟨what', hwhat, heq⟩ := List.mem_map.mp h
    cases heq
    exact ⟨cell, List.mem_zipIdx_iff_getElem?.mp hcell, hwhat⟩
  · rintro ⟨cell, hcell, hwhat⟩
    exact ⟨(cell, i), List.mem_zipIdx_iff_getElem?.mpr hcell, List.mem_map_of_mem hwhat⟩

/-- Whatever is read, cleaned under valid configurations, written and read again has the shape of a
notebook, and that is to say that it is accepted as the notebook it is. All items among its cells
are objects, each of them is visited at its place, and findings in it are known by this place. What
cleaning would do with other items, or with a root that has no array of cells, makes no
difference. -/
theorem notebook_of_reached (h : Reached b root) :
    (keys root).Nodup ∧ Shape root ∧
      (∀ root', Shape root' ↔ ∃ nb, ofJson? (.obj root') = .ok nb ∧ nb.toJson = .obj root') ∧
      ∃ nb items, ofJson? (.obj root) = .ok nb ∧ nb.toJson = .obj root ∧
        get? root "cells" = some (.arr items) ∧ nb.cells.length = items.length ∧
        (∀ i : Nat, items[i]? = nb.cells[i]?.map .obj) ∧
        (∀ c, c.Valid → ∃ findings, nb.check c = .ok findings ∧ ∀ i what,
          .inCell i what ∈ findings ↔
            ∃ cell, items[i]? = some (.obj cell) ∧ what ∈ Cell.findings c cell) ∧
        ∀ c, c.Valid → ∃ nb', nb.clean c = .ok nb' ∧ ∀ b', clean b' c root = nb'.root := by
  obtain ⟨nb, rfl, hkeys⟩ := h.exists_notebook
  refine ⟨hkeys.root, nb.shape, fun root' => shape_iff_ofJson?, nb, nb.cells.map .obj,
    ofJson?_toJson nb, rfl, nb.get?_cells, (List.length_map _).symm, fun i => List.getElem?_map,
    fun c hc => ⟨nb.findings c, check_of_valid hc nb, fun i what => ?_⟩,
    fun c hc => ⟨nb.cleaned c, clean_of_valid hc nb, fun b' => clean_root b' c nb⟩⟩
  simp only [mem_findings_iff, List.getElem?_map, Option.map_eq_some_iff, Json.obj.injEq,
    exists_eq_right]

/-- A blank cell, and a cell whose metadata are a number. -/
def halfBlank : Notebook where
  root := [("cells", .arr [.obj [("source", .null)],
    .obj [("metadata", .num "1"), ("source", .str "a")]])]
  shape := defect?_eq_none_iff.mp rfl

def halfBlankCleaned : Notebook := halfBlank.cleaned { removeEmptyCells := true }

theorem legible_halfBlankCleaned : Json.Legible Json.Reader.maxDepth halfBlankCleaned.toJson := by
  have hmetadata : Json.Legible 124 (.obj []) := .obj (by simp) (by simp) (by simp)
  have hcell : Json.Legible 125 (.obj [("metadata", .obj []), ("source", .str "a")]) :=
    .obj (by decide) (by decide) (by simp [hmetadata, Json.Legible.str])
  have hcells : Json.Legible 126 (.arr [.obj [("metadata", .obj []), ("source", .str "a")]]) :=
    .arr (List.forall_mem_singleton.mpr hcell)
  exact .obj (by decide) (by decide) (List.forall_mem_singleton.mpr hcells)

/-- A notebook that was cleaned, written and read again. -/
theorem notebook_of_reached_halfBlank : Reached .leave halfBlankCleaned.root ∧
    (keys halfBlankCleaned.root).Nodup ∧ ∃ nb items,
      ofJson? (.obj halfBlankCleaned.root) = .ok nb ∧
      get? halfBlankCleaned.root "cells" = some (.arr items) ∧ nb.cells.length = items.length ∧
      ∃ nb', nb.clean {} = .ok nb' ∧
        clean ⟨fun _ => none, fun _ => []⟩ {} halfBlankCleaned.root = nb'.root := by
  have hcleaned : Reached .leave halfBlankCleaned.root := by
    rw [halfBlankCleaned, ← clean_root .leave]
    exact .cleaned _ (by decide) (.taken (v := halfBlank.toJson) rfl (ofJson?_toJson halfBlank))
  have hread : ofText? (text halfBlankCleaned.root) = .ok halfBlankCleaned :=
    ofText?_text_iff.mpr legible_halfBlankCleaned
  have hreached : Reached .leave halfBlankCleaned.root := .reread hcleaned hread
  obtain ⟨hnodup, -, -, nb, items, hnb, -, hitems, hlength, -, -, hclean⟩ :=
    notebook_of_reached hreached
  obtain ⟨nb', hnb', hany⟩ := hclean {} (by decide)
  exact ⟨hreached, hnodup, nb, items, hnb, hitems, hlength, nb', hnb', hany _⟩

end NotebookCleaning.Document
