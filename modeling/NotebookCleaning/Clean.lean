import NotebookCleaning.Error

/-!
# Cleaning

`Cell.clean` and `Notebook.clean` take away what a configuration does not keep. A value is cleared
in its place; a field that has to be there and is missing comes last. Cleaning keeps the shape of a
notebook.
-/

namespace NotebookCleaning

namespace Cell

/-- Clears the count of every output that has one. -/
def clearOutputCounts (cell : Cell) : Cell :=
  Object.modify "outputs"
    (Json.onArray (List.map (Json.onObject (Object.modify "execution_count" fun _ => .null)))) cell

def cleanCode (c : Config) (cell : Cell) : Cell :=
  let cell := if c.preserveCounts then cell else Object.insert "execution_count" .null cell
  if !c.preserveOutputs then Object.insert "outputs" (.arr []) cell
  else if !c.preserveCounts then clearOutputCounts cell
  else cell

def cleanMetadata (p : MetadataPolicy) (cell : Cell) : Cell :=
  match p with
  | .preserveAll => cell
  | .strip => Object.insert "metadata" (.obj []) cell
  | .preserve fields =>
    Object.insert "metadata" (.obj (Object.restrict fields.contains (cell.metadata?.getD []))) cell

def clean (c : Config) (cell : Cell) : Cell :=
  cleanMetadata c.cellMetadata (if cell.isCode then cleanCode c cell else cell)

end Cell

namespace Notebook

def cleanCells (c : Config) (cells : List Cell) : List Cell :=
  (if c.removeEmptyCells then cells.filter fun cell => !cell.isBlank else cells).map (Cell.clean c)

/-- Takes the version of the language out of the metadata of a document. -/
def dropLanguageVersion (root : Object) : Object :=
  Object.modify "metadata"
    (Json.onObject (Object.modify "language_info" (Json.onObject (Object.erase "version")))) root

def cleanDocument (c : Config) (root : Object) : Object :=
  if c.removeNotebookMetadata then Object.insert "metadata" (.obj []) root
  else if c.preserveNotebookMetadata then root
  else dropLanguageVersion root

def putCells (cells : List Cell) (root : Object) : Object :=
  Object.insert "cells" (.arr (cells.map .obj)) root

theorem Shape.putCells {root : Object} (h : Shape root) (cells : List Cell) :
    Shape (putCells cells root) where
  cells := ⟨cells, by rw [Notebook.putCells, Object.get?_insert, if_pos rfl]⟩
  metadata v hv := by
    rw [Notebook.putCells, Object.get?_insert, if_neg (by decide)] at hv
    exact h.metadata v hv

theorem Shape.cleanDocument {root : Object} (h : Shape root) (c : Config) :
    Shape (cleanDocument c root) := by
  unfold Notebook.cleanDocument
  split
  · constructor
    · rw [Object.get?_insert, if_neg (by decide)]
      exact h.cells
    · intro v hv
      rw [Object.get?_insert, if_pos rfl, Option.some.injEq] at hv
      exact ⟨[], hv.symm⟩
  · split
    · exact h
    · constructor
      · rw [dropLanguageVersion, Object.get?_modify, if_neg (by decide)]
        exact h.cells
      · intro v hv
        rw [dropLanguageVersion, Object.get?_modify, if_pos rfl, Option.map_eq_some_iff] at hv
        obtain ⟨w, hw, rfl⟩ := hv
        obtain ⟨m, rfl⟩ := h.metadata w hw
        exact ⟨_, rfl⟩

def cleaned (c : Config) (nb : Notebook) : Notebook where
  root := cleanDocument c (putCells (cleanCells c nb.cells) nb.root)
  shape := (nb.shape.putCells _).cleanDocument c

/-- The cleaned notebook, if the configuration is valid. -/
def clean (c : Config) (nb : Notebook) : Except Error Notebook :=
  c.validate.map fun c => nb.cleaned c

end Notebook

end NotebookCleaning
