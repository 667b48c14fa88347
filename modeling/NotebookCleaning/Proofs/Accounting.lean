import NotebookCleaning.Proofs.CleanedCell
import NotebookCleaning.Proofs.CleanedDocument
import NotebookCleaning.Proofs.DistinctKeys

/-!
# Findings as an account of what cleaning takes away

`Notebook.losses` compares a notebook with another one, cell by cell, and lists what the first has
and the second lacks. The findings of a check are the losses against the notebook cleaned with all
its cells kept, so that the cells of both stand at the same places.
-/

namespace NotebookCleaning

open Object

namespace Cell

def metadataKeys (cell : Cell) : List String := keys (cell.metadata?.getD [])

def losses (c : Config) (before after : Cell) : List CellFinding :=
  (if c.removeEmptyCells && before.isBlank then [.blank] else []) ++
  (if before.executionCount?.isSome && after.executionCount?.isNone then [.executionCount]
    else []) ++
  (if before.hasOutputs && !after.hasOutputs then [.outputs] else []) ++
  (if c.preserveOutputs
    then List.replicate (before.countedOutputs - after.countedOutputs) .outputCount else []) ++
  (before.metadataKeys.filter fun f => f ∉ after.metadataKeys).map .metadata

variable (c : Config) (cell : Cell)

theorem codeFindings_eq_losses : (if cell.isCode then codeFindings c cell else []) =
    (if cell.executionCount?.isSome && (cell.clean c).executionCount?.isNone
      then [.executionCount] else []) ++
    (if cell.hasOutputs && !(cell.clean c).hasOutputs then [.outputs] else []) ++
    (if c.preserveOutputs
      then List.replicate (cell.countedOutputs - (cell.clean c).countedOutputs) .outputCount
      else []) := by
  rw [executionCount?_clean, hasOutputs_clean, countedOutputs_clean]
  have hcount : cell.executionCount?.isSome → cell.executionCount? ≠ none :=
    Option.isSome_iff_ne_none.mp
  cases cell.isCode with
  | false => simpa using hcount
  | true =>
    cases hc : c.preserveCounts <;> cases ho : c.preserveOutputs <;>
      simp [codeFindings, hc, ho]
    all_goals exact hcount

theorem metadataFindings_eq_losses : metadataFindings c.cellMetadata cell =
    (cell.metadataKeys.filter fun f => f ∉ (cell.clean c).metadataKeys).map .metadata := by
  have hfindings : metadataFindings c.cellMetadata cell =
      (cell.metadataKeys.filter fun f => !c.cellMetadata.keeps f).map .metadata := by
    rw [metadataFindings, metadataKeys]
    cases cell.metadata? <;> rfl
  rw [hfindings]
  congr 1
  apply List.filter_congr
  intro f hf
  have hf' : f ∈ keys (cell.metadata?.getD []) := hf
  rw [metadataKeys, metadata?_clean]
  cases c.cellMetadata <;> simp [MetadataPolicy.keeps, keys_restrict, hf']

theorem findings_eq_losses : cell.findings c = losses c cell (cell.clean c) := by
  rw [findings, losses, codeFindings_eq_losses, metadataFindings_eq_losses]
  simp only [List.append_assoc]

end Cell

namespace Config

variable (c : Config)

/-- The configuration with all cells kept. -/
def keepingEmptyCells : Config := { c with removeEmptyCells := false }

@[simp] theorem preserveNotebookMetadata_keepingEmptyCells :
    c.keepingEmptyCells.preserveNotebookMetadata = c.preserveNotebookMetadata := rfl

@[simp] theorem removeNotebookMetadata_keepingEmptyCells :
    c.keepingEmptyCells.removeNotebookMetadata = c.removeNotebookMetadata := rfl

end Config

namespace Notebook

variable (c : Config) (nb : Notebook)

def documentLosses (before after : Notebook) : List Finding :=
  (if !(before.metadata?.getD []).isEmpty && (after.metadata?.getD []).isEmpty
    then [.notebookMetadata] else []) ++
  (if !c.removeNotebookMetadata && before.languageVersion?.isSome && after.languageVersion?.isNone
    then [.languageVersion] else [])

/-- What a notebook has and another lacks, for notebooks with as many cells. -/
def losses (before after : Notebook) : List Finding :=
  ((before.cells.zip after.cells).zipIdx.flatMap fun cell =>
    (Cell.losses c cell.1.1 cell.1.2).map (.inCell cell.2)) ++
  documentLosses c before after

theorem documentFindings_eq_losses : documentFindings c nb =
    documentLosses c nb (nb.cleaned c.keepingEmptyCells) := by
  have hmodify (f : Json → Json) (m : Object) :
      Object.modify "language_info" f m = [] ↔ m = [] := List.map_eq_nil_iff
  unfold documentLosses documentFindings
  cases hr : c.removeNotebookMetadata with
  | true => cases nb.metadata? <;> simp [metadata?_cleaned, hr]
  | false =>
    cases hp : c.preserveNotebookMetadata with
    | true =>
      simpa [metadata?_cleaned, languageVersion?_cleaned, hr, hp] using
        Option.isSome_iff_ne_none.mp
    | false =>
      cases hm : nb.metadata? <;>
        simp [metadata?_cleaned, languageVersion?_cleaned, hr, hp, hm, hmodify]

/-- The findings are the losses against the notebook cleaned with all cells kept. -/
theorem check_eq_losses {c : Config} (hc : c.Valid) (nb : Notebook) :
    ∃ after, nb.clean c.keepingEmptyCells = .ok after ∧
      after.cells.length = nb.cells.length ∧ nb.check c = .ok (losses c nb after) := by
  have hcells : (nb.cleaned c.keepingEmptyCells).cells = nb.cells.map (Cell.clean c) :=
    cells_cleaned _ nb
  have hvalid : c.keepingEmptyCells.Valid := hc
  refine ⟨nb.cleaned c.keepingEmptyCells, clean_of_valid hvalid nb, ?_, ?_⟩
  · rw [hcells, List.length_map]
  · rw [check_of_valid hc, findings, losses, documentFindings_eq_losses, hcells,
      ← List.map_prod_left_eq_zip, List.zipIdx_map, List.flatMap_map]
    simp only [Cell.findings_eq_losses]
    rfl

theorem check_eq_losses_oddShapes :
    Config.Valid { removeEmptyCells := true, preserveOutputs := true } ∧
    ∃ after, oddShapes.clean { preserveOutputs := true } = .ok after ∧
      after.cells.length = oddShapes.cells.length ∧
      oddShapes.check { removeEmptyCells := true, preserveOutputs := true } =
        .ok (losses { removeEmptyCells := true, preserveOutputs := true } oddShapes after) :=
  ⟨by decide, check_eq_losses (c := { removeEmptyCells := true, preserveOutputs := true })
    (by decide) oddShapes⟩

example : oddShapes.findings { removeEmptyCells := true } =
    [.inCell 0 .blank, .inCell 0 .executionCount, .inCell 0 .outputs, .inCell 2 .blank,
      .inCell 2 (.metadata "tags")] := by decide

end Notebook

end NotebookCleaning
