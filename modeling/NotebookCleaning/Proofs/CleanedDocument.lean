import NotebookCleaning.Clean
import NotebookCleaning.Finding
import NotebookCleaning.Proofs.Object

/-!
# A cleaned document, field by field

Cleaning a notebook acts on its root through two fields only: the cells, which are cleaned one by
one, and the metadata of the document (`get?_cleaned`, `keys_cleaned`).
-/

namespace NotebookCleaning

namespace Json

/-- The metadata of a document without the version of its language. -/
def dropVersion : Json → Json :=
  onObject (Object.modify "language_info" (onObject (Object.erase "version")))

end Json

namespace Notebook

open Object

theorem clean_of_valid {c : Config} (hc : c.Valid) (nb : Notebook) :
    nb.clean c = .ok (nb.cleaned c) :=
  Config.map_validate_of_valid hc _

theorem clean_eq_ok_iff {c : Config} {nb after : Notebook} :
    nb.clean c = .ok after ↔ c.Valid ∧ nb.cleaned c = after :=
  Config.map_validate_eq_ok_iff

theorem check_of_valid {c : Config} (hc : c.Valid) (nb : Notebook) :
    nb.check c = .ok (nb.findings c) :=
  Config.map_validate_of_valid hc _

theorem check_eq_ok_iff {c : Config} {nb : Notebook} {findings : List Finding} :
    nb.check c = .ok findings ↔ c.Valid ∧ nb.findings c = findings :=
  Config.map_validate_eq_ok_iff

/-- A notebook is determined by its root. -/
theorem ext_of_root {nb nb' : Notebook} (h : nb.root = nb'.root) : nb = nb' := by
  cases nb
  cases nb'
  cases h
  rfl

theorem get?_metadata (nb : Notebook) : get? nb.root "metadata" = nb.metadata?.map .obj := by
  rw [metadata?]
  cases hget : get? nb.root "metadata" with
  | none => rfl
  | some v =>
    obtain ⟨m, rfl⟩ := nb.shape.metadata v hget
    rfl

variable (c : Config) (nb : Notebook)

/-- The cells that a configuration does not drop. -/
def keptCells (cells : List Cell) : List Cell :=
  if c.removeEmptyCells then cells.filter fun cell => !cell.isBlank else cells

theorem cleanCells_eq (cells : List Cell) :
    cleanCells c cells = (keptCells c cells).map (Cell.clean c) := rfl

theorem keptCells_eq_filter (cells : List Cell) :
    keptCells c cells = cells.filter fun cell => !(c.removeEmptyCells && cell.isBlank) := by
  unfold keptCells
  split <;> simp [*]

theorem mem_of_mem_keptCells {c : Config} {cells : List Cell} {cell : Cell}
    (h : cell ∈ keptCells c cells) : cell ∈ cells := by
  rw [keptCells_eq_filter] at h
  exact List.mem_of_mem_filter h

theorem keptCells_eq_self_iff {c : Config} {cells : List Cell} : keptCells c cells = cells ↔
    ∀ cell ∈ cells, (c.removeEmptyCells && cell.isBlank) = false := by
  rw [keptCells_eq_filter, List.filter_eq_self]
  exact forall₂_congr fun cell _ => by rw [Bool.not_eq_true']

/-- If no cell is missing after cleaning, all of them have been kept. -/
theorem keptCells_eq_self_of_length {c : Config} {cells : List Cell}
    (h : (cleanCells c cells).length = cells.length) : keptCells c cells = cells := by
  have hsub : (keptCells c cells).Sublist cells := by
    rw [keptCells_eq_filter]
    exact List.filter_sublist
  rw [cleanCells_eq, List.length_map] at h
  exact hsub.eq_of_length h

/-- A cell that is kept is blank only if blank cells are kept. -/
theorem isBlank_of_mem_keptCells {c : Config} {cells : List Cell} {cell : Cell}
    (h : cell ∈ keptCells c cells) : (c.removeEmptyCells && cell.isBlank) = false := by
  rw [keptCells_eq_filter, List.mem_filter, Bool.not_eq_true'] at h
  exact h.2

/-- What cleaning makes of the metadata of a document. -/
def cleanDocumentField (v? : Option Json) : Option Json :=
  if c.removeNotebookMetadata then some (.obj [])
  else if c.preserveNotebookMetadata then v?
  else v?.map Json.dropVersion

theorem get?_cleanDocument (root : Object) (key : String) : get? (cleanDocument c root) key =
    if key = "metadata" then cleanDocumentField c (get? root key) else get? root key := by
  have hdrop (o : Object) : dropLanguageVersion o = modify "metadata" Json.dropVersion o := rfl
  unfold cleanDocument cleanDocumentField
  cases c.removeNotebookMetadata with
  | true => simp [get?_insert]
  | false =>
    cases c.preserveNotebookMetadata with
    | true => simp
    | false => simp [hdrop, get?_modify]

theorem root_cleaned :
    (nb.cleaned c).root = cleanDocument c (putCells (cleanCells c nb.cells) nb.root) := rfl

theorem get?_cleaned (key : String) : get? (nb.cleaned c).root key =
    if key = "cells" then some (.arr ((cleanCells c nb.cells).map .obj))
    else if key = "metadata" then cleanDocumentField c (get? nb.root key)
    else get? nb.root key := by
  rw [root_cleaned, get?_cleanDocument, putCells, get?_insert]
  by_cases hcells : key = "cells"
  · subst hcells; simp
  · simp [hcells]

theorem putCells_cells : putCells nb.cells nb.root = nb.root :=
  insert_eq_self_iff.mpr nb.get?_cells

theorem keys_putCells (cells : List Cell) : keys (putCells cells nb.root) = keys nb.root := by
  rw [putCells, keys_insert, withKey, if_pos (mem_keys_of_get? nb.get?_cells)]

/-- The keys of the root stay, and the metadata are added if they have to be there. -/
theorem keys_cleaned : keys (nb.cleaned c).root =
    if c.removeNotebookMetadata then withKey "metadata" (keys nb.root) else keys nb.root := by
  rw [root_cleaned, cleanDocument]
  split
  · rw [keys_insert, keys_putCells]
  · split
    · exact keys_putCells nb _
    · rw [dropLanguageVersion, keys_modify, keys_putCells]

@[simp] theorem cells_cleaned : (nb.cleaned c).cells = cleanCells c nb.cells :=
  cells_of_get? (by rw [get?_cleaned, if_pos rfl])

theorem get?_metadata_cleaned : get? (nb.cleaned c).root "metadata" =
    cleanDocumentField c (get? nb.root "metadata") := by
  rw [get?_cleaned, if_neg (by decide), if_pos rfl]

theorem object?_dropVersion (v : Json) : (Json.dropVersion v).object? =
    v.object?.map (modify "language_info" (Json.onObject (erase "version"))) := by
  cases v <;> rfl

theorem metadata?_cleaned : (nb.cleaned c).metadata? =
    if c.removeNotebookMetadata then some []
    else if c.preserveNotebookMetadata then nb.metadata?
    else nb.metadata?.map (modify "language_info" (Json.onObject (erase "version"))) := by
  rw [metadata?, get?_metadata_cleaned, cleanDocumentField]
  split
  · rfl
  · split
    · rfl
    · rw [metadata?]
      cases get? nb.root "metadata" with
      | none => rfl
      | some v => exact object?_dropVersion v

/-- Cleaning takes the version of the language away unless it keeps all metadata. -/
theorem languageVersion?_cleaned : (nb.cleaned c).languageVersion? =
    if c.preserveNotebookMetadata && !c.removeNotebookMetadata then nb.languageVersion?
    else none := by
  simp only [languageVersion?, metadata?_cleaned, Option.bind_eq_bind]
  cases c.removeNotebookMetadata with
  | true => simp
  | false =>
    cases c.preserveNotebookMetadata with
    | true => simp
    | false =>
      cases nb.metadata? with
      | none => simp
      | some m =>
        cases hinfo : get? m "language_info" with
        | none => simp [get?_modify, hinfo]
        | some v => cases v <;> simp [get?_modify, hinfo, Json.onObject, Json.object?, get?_erase]

end Notebook

end NotebookCleaning
