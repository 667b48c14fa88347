import NotebookCleaning.Notebook.Text
import NotebookCleaning.Proofs.CleanedCell
import NotebookCleaning.Proofs.CleanedDocument
import NotebookCleaning.Proofs.DistinctKeys

/-!
# Cleaning twice

A second cleaning finds under every key what it would put there, so it changes no value, adds no
entry and moves none: the result is equal to that of the first as a tree, with the order of all
entries. No assumption on repeated keys is needed, because each change is compared with the object
itself and not with its look-ups.
-/

namespace NotebookCleaning

open Object

namespace Json

theorem clearCount_clearCount (v : Json) : clearCount (clearCount v) = clearCount v := by
  cases v with
  | obj o => simp only [clearCount, onObject, modify_modify]; rfl
  | _ => rfl

theorem clearCounts_clearCounts (v : Json) : clearCounts (clearCounts v) = clearCounts v := by
  cases v with
  | arr items => simp [clearCounts, onArray, clearCount_clearCount]
  | _ => rfl

theorem dropVersion_dropVersion (v : Json) : dropVersion (dropVersion v) = dropVersion v := by
  have hinfo : onObject (erase "version") ∘ onObject (erase "version") =
      onObject (erase "version") := by
    funext w
    cases w with
    | obj o => simp [onObject, erase]
    | _ => rfl
  cases v with
  | obj m => simp only [dropVersion, onObject, modify_modify, hinfo]
  | _ => rfl

end Json

namespace Cell

variable (c : Config) (cell : Cell)

theorem keptMetadata_keptMetadata (fields : FieldSet) (v? : Option Json) :
    keptMetadata fields (some (keptMetadata fields v?)) = keptMetadata fields v? := by
  simp [keptMetadata, Json.object?, restrict_restrict]

theorem clearOutputCounts_clearOutputCounts :
    clearOutputCounts (clearOutputCounts cell) = clearOutputCounts cell := by
  have hclear (o : Object) : clearOutputCounts o = modify "outputs" Json.clearCounts o := rfl
  rw [hclear, hclear, modify_modify]
  congr 1
  funext v
  exact Json.clearCounts_clearCounts v

/-- The outputs and the metadata of a cell are cleared independently of each other. -/
theorem clearOutputCounts_cleanMetadata (p : MetadataPolicy) :
    clearOutputCounts (cleanMetadata p cell) = cleanMetadata p (clearOutputCounts cell) := by
  have hmetadata : (clearOutputCounts cell).metadata? = cell.metadata? := by
    rw [metadata?, clearOutputCounts, get?_modify, if_neg (by decide), metadata?]
  cases p with
  | preserveAll => rfl
  | strip => exact modify_insert_of_ne (by decide) _ _ cell
  | preserve fields =>
    simp only [cleanMetadata, hmetadata]
    exact modify_insert_of_ne (by decide) _ _ cell

theorem cleanMetadata_clean : cleanMetadata c.cellMetadata (cell.clean c) = cell.clean c := by
  have hget := get?_clean c cell "metadata"
  rw [cleanField_metadata] at hget
  cases hp : c.cellMetadata with
  | preserveAll => rfl
  | strip =>
    rw [hp] at hget
    exact insert_eq_self_iff.mpr hget
  | preserve fields =>
    rw [hp] at hget
    apply insert_eq_self_iff.mpr
    rw [metadata?, hget]
    exact congrArg some (keptMetadata_keptMetadata fields _).symm

theorem clearOutputCounts_clean (hcode : cell.isCode) (houtputs : c.preserveOutputs)
    (hcounts : c.preserveCounts = false) : clearOutputCounts (cell.clean c) = cell.clean c := by
  rw [clean, clearOutputCounts_cleanMetadata, if_pos hcode]
  simp only [cleanCode, houtputs, hcounts, Bool.not_true, Bool.not_false, Bool.false_eq_true,
    if_false, if_true]
  rw [clearOutputCounts_clearOutputCounts]

theorem cleanCode_clean (hcode : cell.isCode) : cleanCode c (cell.clean c) = cell.clean c := by
  have hcount : (if c.preserveCounts then cell.clean c
      else insert "execution_count" .null (cell.clean c)) = cell.clean c := by
    split
    · rfl
    · next hc =>
      apply insert_eq_self_iff.mpr
      simp [get?_clean, cleanField_executionCount, hcode, hc]
  simp only [cleanCode, hcount]
  split
  · next ho =>
    apply insert_eq_self_iff.mpr
    rw [get?_clean, cleanField_outputs, hcode, Bool.true_and, if_pos ho]
  · next ho =>
    split
    · next hc => exact clearOutputCounts_clean c cell hcode (by simpa using ho) (by simpa using hc)
    · rfl

theorem clean_clean : (cell.clean c).clean c = cell.clean c := by
  rw [clean, isCode_clean]
  split
  · next hcode => rw [cleanCode_clean c cell hcode, cleanMetadata_clean]
  · exact cleanMetadata_clean c cell

end Cell

namespace Notebook

variable (c : Config) (nb : Notebook)

theorem cleanCells_cleanCells (cells : List Cell) :
    cleanCells c (cleanCells c cells) = cleanCells c cells := by
  have hkept : keptCells c (cleanCells c cells) = cleanCells c cells := by
    refine keptCells_eq_self_iff.mpr fun cell hcell => ?_
    obtain ⟨before, hbefore, rfl⟩ := List.mem_map.mp hcell
    rw [Cell.isBlank_clean, isBlank_of_mem_keptCells hbefore]
  rw [cleanCells_eq, hkept, cleanCells_eq, List.map_map]
  exact List.map_congr_left fun cell _ => Cell.clean_clean c cell

theorem putCells_cleaned :
    putCells (cleanCells c (nb.cleaned c).cells) (nb.cleaned c).root = (nb.cleaned c).root := by
  apply insert_eq_self_iff.mpr
  rw [get?_cleaned, if_pos rfl, cells_cleaned, cleanCells_cleanCells]

theorem cleanDocument_cleanDocument (root : Object) :
    cleanDocument c (cleanDocument c root) = cleanDocument c root := by
  have hdrop (o : Object) : dropLanguageVersion o = modify "metadata" Json.dropVersion o := rfl
  unfold cleanDocument
  split
  · apply insert_eq_self_iff.mpr
    rw [get?_insert, if_pos rfl]
  · split
    · rfl
    · rw [hdrop, hdrop, modify_modify]
      congr 1
      funext v
      exact Json.dropVersion_dropVersion v

theorem cleaned_cleaned : (nb.cleaned c).cleaned c = nb.cleaned c := by
  apply ext_of_root
  rw [root_cleaned c (nb.cleaned c), putCells_cleaned, root_cleaned, cleanDocument_cleanDocument]

/-- Cleaning under a valid configuration succeeds, and cleaning the result again returns that very
notebook, entry by entry and in the same order, so both are written as the same text. -/
theorem clean_then_clean {c : Config} (hc : c.Valid) (nb : Notebook) :
    ∃ once twice, nb.clean c = .ok once ∧ once.clean c = .ok twice ∧
      twice = once ∧ twice.text = once.text := by
  refine ⟨nb.cleaned c, (nb.cleaned c).cleaned c, clean_of_valid hc nb, clean_of_valid hc _, ?_⟩
  rw [cleaned_cleaned]
  exact ⟨rfl, rfl⟩

theorem clean_then_clean_oddShapes : Config.Valid { preserveOutputs := true } ∧
    ∃ once twice, oddShapes.clean { preserveOutputs := true } = .ok once ∧
      once.clean { preserveOutputs := true } = .ok twice ∧ twice = once ∧ twice.text = once.text :=
  ⟨by decide, clean_then_clean (by decide) oddShapes⟩

end Notebook

end NotebookCleaning
