import NotebookCleaning.Proofs.CleanedCell
import NotebookCleaning.Proofs.CleanedDocument
import NotebookCleaning.Proofs.DistinctKeys

/-!
# Nothing is found after cleaning

What the checker looks at is read off from a cleaned cell and from a cleaned document. Each look
finds nothing, except for blank cells, which are findings only where they are dropped.
-/

namespace NotebookCleaning

namespace Cell

variable (c : Config) (cell : Cell)

theorem codeFindings_clean (hcode : cell.isCode) : codeFindings c (cell.clean c) = [] := by
  have hcount := executionCount?_clean c cell
  have houtputs := hasOutputs_clean c cell
  have hcounted := countedOutputs_clean c cell
  rw [hcode] at hcount houtputs hcounted
  simp only [codeFindings, hcount, houtputs, hcounted]
  cases c.preserveCounts <;> cases c.preserveOutputs <;> simp

theorem metadataFindings_clean : metadataFindings c.cellMetadata (cell.clean c) = [] := by
  simp only [metadataFindings, metadata?_clean]
  cases c.cellMetadata with
  | strip => rfl
  | preserveAll => cases cell.metadata? <;> simp [MetadataPolicy.keeps]
  | preserve fields =>
    simp only [Object.keys_restrict, MetadataPolicy.keeps, List.filter_filter, List.map_eq_nil_iff,
      List.filter_eq_nil_iff]
    intro field _
    simp

theorem findings_clean : (cell.clean c).findings c =
    if c.removeEmptyCells && cell.isBlank then [.blank] else [] := by
  rw [findings, isBlank_clean, isCode_clean, metadataFindings_clean, List.append_nil]
  by_cases hcode : cell.isCode
  · rw [if_pos hcode, codeFindings_clean c cell hcode, List.append_nil]
  · rw [if_neg hcode, List.append_nil]

end Cell

namespace Notebook

variable (c : Config) (nb : Notebook)

theorem findings_of_mem_cleanCells {cells : List Cell} {cell : Cell}
    (h : cell ∈ cleanCells c cells) : cell.findings c = [] := by
  obtain ⟨before, hbefore, rfl⟩ := List.mem_map.mp h
  rw [Cell.findings_clean, isBlank_of_mem_keptCells hbefore]
  rfl

theorem documentFindings_cleaned : documentFindings c (nb.cleaned c) = [] := by
  simp only [documentFindings, metadata?_cleaned, languageVersion?_cleaned]
  cases c.removeNotebookMetadata with
  | true => rfl
  | false => cases c.preserveNotebookMetadata <;> rfl

theorem findings_cleaned : (nb.cleaned c).findings c = [] := by
  rw [findings, documentFindings_cleaned, List.append_nil, cells_cleaned, List.flatMap_eq_nil_iff]
  rintro ⟨cell, index⟩ hmem
  have hcell := List.fst_mem_of_mem_zipIdx hmem
  rw [findings_of_mem_cleanCells c hcell, List.map_nil]

/-- Cleaning succeeds under every valid configuration, and checking what it returns succeeds and
finds nothing. -/
theorem clean_then_check {c : Config} (hc : c.Valid) (nb : Notebook) :
    ∃ after, nb.clean c = .ok after ∧ after.check c = .ok [] := by
  refine ⟨nb.cleaned c, clean_of_valid hc nb, ?_⟩
  rw [check_of_valid hc, findings_cleaned]

theorem clean_then_check_oddShapes : Config.Valid { removeEmptyCells := true } ∧
    ∃ after, oddShapes.clean { removeEmptyCells := true } = .ok after ∧
      after.check { removeEmptyCells := true } = .ok [] :=
  ⟨by decide, clean_then_check (by decide) oddShapes⟩

end Notebook

end NotebookCleaning
