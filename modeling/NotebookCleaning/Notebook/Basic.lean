import NotebookCleaning.Json.Integer
import NotebookCleaning.Notebook.Cell

/-!
# Notebooks

A notebook is a JSON object whose `cells` are an array of objects and whose `metadata`, if present,
are an object. `Notebook.ofJson?` accepts exactly the values of that shape (`defect?_eq_none_iff`)
and names the first defect of any other.
-/

namespace NotebookCleaning

/-- Why a value is not a notebook. -/
inductive Malformed where
  | notObject (found : Json.Kind)
  | noCells
  | cellsNotArray (found : Json.Kind)
  | cellNotObject (index : Nat)
  | metadataNotObject (found : Json.Kind)

namespace Malformed

def kindText : Json.Kind → String
  | .null => "null"
  | .boolean => "a boolean"
  | .number => "a number"
  | .string => "a string"
  | .array => "an array"
  | .object => "an object"

def message : Malformed → String
  | notObject found => s!"expected a JSON object at the top level, found {kindText found}"
  | noCells => "missing top-level `cells`"
  | cellsNotArray found => s!"`cells` must be an array, found {kindText found}"
  | cellNotObject index => s!"cell {index} is not a JSON object"
  | metadataNotObject found => s!"`metadata` must be an object, found {kindText found}"

end Malformed

namespace Notebook

/-- The shape of a notebook's root. -/
structure Shape (root : Object) : Prop where
  cells : ∃ cells : List Cell, Object.get? root "cells" = some (.arr (cells.map .obj))
  metadata : ∀ v, Object.get? root "metadata" = some v → ∃ m, v = .obj m

def cellsDefect? (root : Object) : Option Malformed :=
  match Object.get? root "cells" with
  | none => some .noCells
  | some (.arr items) =>
    (items.findIdx? fun v => v.kind ≠ .object).map .cellNotObject
  | some v => some (.cellsNotArray v.kind)

def metadataDefect? (root : Object) : Option Malformed :=
  match Object.get? root "metadata" with
  | none | some (.obj _) => none
  | some v => some (.metadataNotObject v.kind)

/-- The first defect of a root: those of its cells come before those of its metadata. -/
def defect? (root : Object) : Option Malformed := cellsDefect? root <|> metadataDefect? root

theorem exists_map_obj {items : List Json} (h : ∀ v ∈ items, v.kind = .object) :
    ∃ cells : List Cell, items = cells.map .obj := by
  induction items with
  | nil => exact ⟨[], rfl⟩
  | cons v vs ih =>
    obtain ⟨cells, hcells⟩ := ih fun w hw => h w (List.mem_cons_of_mem _ hw)
    have hv := h v List.mem_cons_self
    cases v <;> simp only [Json.kind, reduceCtorEq] at hv
    next o => exact ⟨o :: cells, by rw [hcells]; rfl⟩

theorem cellsDefect?_eq_none_iff {root : Object} :
    cellsDefect? root = none ↔
      ∃ cells : List Cell, Object.get? root "cells" = some (.arr (cells.map .obj)) := by
  unfold cellsDefect?
  constructor
  · intro h
    split at h
    · simp at h
    · next items hroot =>
      simp only [ne_eq, Option.map_eq_none_iff, List.findIdx?_eq_none_iff, decide_not,
        Bool.not_eq_false', decide_eq_true_eq] at h
      obtain ⟨cells, rfl⟩ := exists_map_obj h
      exact ⟨cells, hroot⟩
    · simp at h
  · rintro ⟨cells, h⟩
    rw [h]
    simp [List.findIdx?_eq_none_iff, Json.kind]

theorem metadataDefect?_eq_none_iff {root : Object} :
    metadataDefect? root = none ↔
      ∀ v, Object.get? root "metadata" = some v → ∃ m, v = .obj m := by
  unfold metadataDefect?
  split
  · next h => simp [h]
  · next m h => simp [h]
  · next v hne h =>
    simp only [h, Option.some.injEq, reduceCtorEq, false_iff]
    intro hall
    obtain ⟨m, rfl⟩ := hall v rfl
    exact hne m rfl

theorem defect?_eq_none_iff {root : Object} : defect? root = none ↔ Shape root := by
  unfold defect?
  rw [Option.orElse_eq_orElse, Option.orElse_eq_or, Option.or_eq_none_iff,
    cellsDefect?_eq_none_iff, metadataDefect?_eq_none_iff]
  exact ⟨fun h => ⟨h.1, h.2⟩, fun h => ⟨h.cells, h.metadata⟩⟩

end Notebook

structure Notebook where
  root : Object
  shape : Notebook.Shape root

namespace Notebook

/-- The notebook that a value is, or why it is none. -/
def ofJson? : Json → Except Malformed Notebook
  | .obj root =>
    match h : defect? root with
    | none => .ok ⟨root, defect?_eq_none_iff.mp h⟩
    | some defect => .error defect
  | v => .error (.notObject v.kind)

def toJson (nb : Notebook) : Json := .obj nb.root

def cells (nb : Notebook) : List Cell :=
  match Object.get? nb.root "cells" with
  | some (.arr items) => items.filterMap Json.object?
  | _ => []

theorem cells_of_get? {nb : Notebook} {cells : List Cell}
    (h : Object.get? nb.root "cells" = some (.arr (cells.map .obj))) : nb.cells = cells := by
  have hobject : Json.object? ∘ Json.obj = some := rfl
  simp only [Notebook.cells, h, List.filterMap_map, hobject, List.filterMap_some]

theorem get?_cells (nb : Notebook) :
    Object.get? nb.root "cells" = some (.arr (nb.cells.map .obj)) := by
  obtain ⟨cells, h⟩ := nb.shape.cells
  rw [h, cells_of_get? h]

def metadata? (nb : Notebook) : Option Object :=
  (Object.get? nb.root "metadata").bind Json.object?

def natural? : Json → Option Nat
  | .num text => Json.Integer.natural? text
  | _ => none

/-- The major and the minor number of the format, if both are natural numbers. -/
def formatVersion? (nb : Notebook) : Option (Nat × Nat) := do
  let major ← (Object.get? nb.root "nbformat").bind natural?
  let minor ← (Object.get? nb.root "nbformat_minor").bind natural?
  return (major, minor)

/-- The version of the language, if the document records one. -/
def languageVersion? (nb : Notebook) : Option Json := do
  let metadata ← nb.metadata?
  let info ← (Object.get? metadata "language_info").bind Json.object?
  Object.get? info "version"

/-- Equality up to the order of entries. -/
def same (a b : Notebook) : Bool := a.toJson.same b.toJson

end Notebook

end NotebookCleaning
