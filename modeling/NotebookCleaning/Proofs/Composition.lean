import NotebookCleaning.Proofs.CleanedKeys
import NotebookCleaning.Proofs.Idempotence
import NotebookCleaning.Proofs.Same

/-!
# Cleaning under one configuration after another

Two passes of cleaning do what one pass does that keeps only what both keep. `Config.meet` is the
configuration of that pass. The comparison is made field by field, for a cell in
`Cell.cleanField_cleanField` and for the document in `cleanDocumentField_cleanDocumentField`; only
the places of the fields that a pass adds depend on the order of the passes.
-/

namespace NotebookCleaning

open Object

namespace FieldSet

def inter (s t : FieldSet) : FieldSet := ⟨s.fields.filter t.contains, s.ascending.filter _⟩

theorem contains_inter (s t : FieldSet) (f : String) :
    (s.inter t).contains f = (s.contains f && t.contains f) := by
  rw [Bool.eq_iff_iff]
  simp [inter, contains]

theorem nodup_fields (s : FieldSet) : s.fields.Nodup := by
  refine s.ascending.imp ?_
  rintro f g hlt rfl
  exact String.lt_irrefl f hlt

/-- A set of fields is determined by its members, because its fields are kept in order. -/
theorem ext_of_contains {s t : FieldSet} (h : ∀ f, s.contains f = t.contains f) : s = t := by
  have hmem (f : String) : f ∈ s.fields ↔ f ∈ t.fields := by
    simpa [contains] using Bool.eq_iff_iff.mp (h f)
  have hperm : s.fields.Perm t.fields :=
    (List.perm_ext_iff_of_nodup s.nodup_fields t.nodup_fields).mpr hmem
  have hfields : s.fields = t.fields :=
    hperm.eq_of_pairwise (fun _ _ _ _ hab hba => absurd hba (String.lt_asymm hab))
      s.ascending t.ascending
  cases s
  cases t
  cases hfields
  rfl

theorem inter_comm (s t : FieldSet) : s.inter t = t.inter s :=
  ext_of_contains fun f => by rw [contains_inter, contains_inter, Bool.and_comm]

end FieldSet

namespace MetadataPolicy

/-- The policy that keeps what both policies keep. -/
def meet : MetadataPolicy → MetadataPolicy → MetadataPolicy
  | strip, _ => strip
  | preserveAll, q => q
  | preserve _, strip => strip
  | preserve s, preserveAll => preserve s
  | preserve s, preserve t => preserve (s.inter t)

theorem keeps_meet (p q : MetadataPolicy) (f : String) :
    (p.meet q).keeps f = (p.keeps f && q.keeps f) := by
  cases p <;> cases q <;> simp [meet, keeps, FieldSet.contains_inter]

theorem meet_comm (p q : MetadataPolicy) : p.meet q = q.meet p := by
  cases p with
  | strip => cases q <;> rfl
  | preserveAll => cases q <;> rfl
  | preserve s =>
    cases q with
    | preserve t => exact congrArg preserve (s.inter_comm t)
    | _ => rfl

end MetadataPolicy

namespace Config

/-- The configuration that keeps what both configurations keep. -/
def meet (c₁ c₂ : Config) : Config where
  removeEmptyCells := c₁.removeEmptyCells || c₂.removeEmptyCells
  cellMetadata := c₁.cellMetadata.meet c₂.cellMetadata
  preserveOutputs := c₁.preserveOutputs && c₂.preserveOutputs
  preserveCounts := c₁.preserveCounts && c₂.preserveCounts
  preserveNotebookMetadata := c₁.preserveNotebookMetadata && c₂.preserveNotebookMetadata
  removeNotebookMetadata := c₁.removeNotebookMetadata || c₂.removeNotebookMetadata

theorem meet_comm (c₁ c₂ : Config) : c₁.meet c₂ = c₂.meet c₁ := by
  simp only [meet, Bool.or_comm, Bool.and_comm, MetadataPolicy.meet_comm c₁.cellMetadata]

/-- If the meet removed the metadata of the document and preserved them, one of the configurations
would do both as well. -/
theorem Valid.meet {c₁ c₂ : Config} (h₁ : c₁.Valid) (h₂ : c₂.Valid) : (c₁.meet c₂).Valid := by
  rintro ⟨hpreserve, hremove⟩
  simp only [Config.meet, Bool.and_eq_true, Bool.or_eq_true] at hpreserve hremove
  rcases hremove with hr | hr
  · exact h₁ ⟨hpreserve.1, hr⟩
  · exact h₂ ⟨hpreserve.2, hr⟩

end Config

variable (c₁ c₂ : Config)

namespace Cell

theorem keptMetadata_inter (s t : FieldSet) (v? : Option Json) :
    keptMetadata t (some (keptMetadata s v?)) = keptMetadata (s.inter t) v? := by
  simp only [keptMetadata, Option.bind_some, Json.object?, Option.getD_some, restrict_restrict]
  congr 3
  funext key
  rw [FieldSet.contains_inter, Bool.and_comm]

/-- What a second pass makes of a field is what one pass under the meet makes of it. -/
theorem cleanField_cleanField (code : Bool) (key : String) (v? : Option Json) :
    cleanField c₂ code key (cleanField c₁ code key v?) = cleanField (c₁.meet c₂) code key v? := by
  cases key using field_cases with
  | executionCount =>
    simp only [cleanField_executionCount, Config.meet]
    cases code <;> cases c₁.preserveCounts <;> cases c₂.preserveCounts <;> rfl
  | outputs =>
    have htwice : Json.clearCounts ∘ Json.clearCounts = Json.clearCounts :=
      funext Json.clearCounts_clearCounts
    have hempty : Json.clearCounts (.arr []) = .arr [] := rfl
    simp only [cleanField_outputs, Config.meet]
    cases code with
    | false => rfl
    | true =>
      -- If both passes keep outputs, either may clear their counts; otherwise none are left.
      cases c₁.preserveOutputs <;> cases c₂.preserveOutputs <;>
        cases c₁.preserveCounts <;> cases c₂.preserveCounts <;> simp [htwice, hempty]
  | metadata =>
    simp only [cleanField_metadata, Config.meet]
    cases c₁.cellMetadata with
    | strip => cases c₂.cellMetadata <;> rfl
    | preserveAll => cases c₂.cellMetadata <;> rfl
    | preserve s =>
      cases c₂.cellMetadata with
      | strip => rfl
      | preserveAll => rfl
      | preserve t => exact congrArg some (keptMetadata_inter s t v?)
  | other key hcount houtputs hmetadata =>
    simp only [cleanField_of_ne _ _ _ hcount houtputs hmetadata]

theorem get?_clean_clean (cell : Cell) (key : String) :
    get? ((cell.clean c₁).clean c₂) key = get? (cell.clean (c₁.meet c₂)) key := by
  rw [get?_clean, isCode_clean, get?_clean, get?_clean, cleanField_cleanField]

end Cell

namespace Notebook

/-- Two notebooks whose cells have the same fields, cell by cell, and whose documents have. -/
structure Alike (a b : Notebook) : Prop where
  cells : List.Forall₂ (fun x y : Cell => ∀ key, get? x key = get? y key) a.cells b.cells
  document : ∀ key, key ≠ "cells" → get? a.root key = get? b.root key

variable {a b d nb : Notebook}

theorem Alike.symm (h : a.Alike b) : b.Alike a where
  cells := h.cells.flip.imp fun _ _ hfields key => (hfields key).symm
  document key hkey := (h.document key hkey).symm

theorem Alike.trans (h : a.Alike b) (h' : b.Alike d) : a.Alike d where
  cells := by
    have hcells := h.cells
    have hcells' := h'.cells
    generalize a.cells = xs at hcells
    generalize b.cells = ys at hcells hcells'
    generalize d.cells = zs at hcells'
    induction hcells generalizing zs with
    | nil =>
      cases hcells'
      exact .nil
    | cons hxy _ ih =>
      cases hcells' with
      | cons hyz htail => exact .cons (fun key => (hxy key).trans (hyz key)) (ih _ htail)
  document key hkey := (h.document key hkey).trans (h'.document key hkey)

theorem Alike.same (h : a.Alike b) (ha : a.DistinctKeys) (hb : b.DistinctKeys) : a.same b := by
  have hcells : (Json.arr (a.cells.map .obj)).same (.arr (b.cells.map .obj)) := by
    rw [Json.same_arr_map_iff, List.forall₂_iff_get]
    obtain ⟨hlength, hfields⟩ := List.forall₂_iff_get.mp h.cells
    refine ⟨hlength, fun i hi hj => ?_⟩
    have hy := Json.nodup_keys_of_distinctKeys (hb.cells _ (List.get_mem b.cells ⟨i, hj⟩))
    exact Json.same_of_get?_eq (ha.cells _ (List.get_mem a.cells ⟨i, hi⟩)) hy (hfields i hi hj)
  unfold Notebook.same toJson
  rw [Json.same_obj_iff ha.root hb.root]
  intro key
  by_cases hkey : key = "cells"
  · subst hkey
    rw [a.get?_cells, b.get?_cells]
    exact .some hcells
  · rw [← h.document key hkey]
    cases hget : get? a.root key with
    | none => exact .none
    | some v => exact .some (Json.same_refl (Json.distinctKeys_of_get? ha hget))

/-- A cell is blank after a pass if it was before, so the second pass drops what it would have
dropped of the uncleaned cells. -/
theorem keptCells_cleanCells (cells : List Cell) : keptCells c₂ (cleanCells c₁ cells) =
    (keptCells (c₁.meet c₂) cells).map (Cell.clean c₁) := by
  have hblank : (fun cell : Cell => !cell.isBlank) ∘ Cell.clean c₁ = fun cell => !cell.isBlank := by
    funext cell
    rw [Function.comp_apply, Cell.isBlank_clean]
  rw [cleanCells_eq]
  unfold keptCells
  cases h₁ : c₁.removeEmptyCells <;> cases h₂ : c₂.removeEmptyCells <;>
    simp [Config.meet, h₁, h₂, List.filter_map, hblank, List.filter_filter]

theorem cleanDocumentField_cleanDocumentField (v? : Option Json) :
    cleanDocumentField c₂ (cleanDocumentField c₁ v?) = cleanDocumentField (c₁.meet c₂) v? := by
  have htwice : Json.dropVersion ∘ Json.dropVersion = Json.dropVersion :=
    funext Json.dropVersion_dropVersion
  have hempty : Json.dropVersion (.obj []) = .obj [] := rfl
  cases h₂ : c₂.removeNotebookMetadata with
  | true => simp [cleanDocumentField, Config.meet, h₂]
  | false =>
    cases h₁ : c₁.removeNotebookMetadata with
    | true => simp [cleanDocumentField, Config.meet, h₁, h₂, hempty]
    | false =>
      cases hp₁ : c₁.preserveNotebookMetadata <;> cases hp₂ : c₂.preserveNotebookMetadata <;>
        simp [cleanDocumentField, Config.meet, h₁, h₂, hp₁, hp₂, htwice]

theorem alike_cleaned_cleaned (nb : Notebook) :
    ((nb.cleaned c₁).cleaned c₂).Alike (nb.cleaned (c₁.meet c₂)) where
  cells := by
    rw [cells_cleaned, cells_cleaned, cells_cleaned, cleanCells_eq c₂, keptCells_cleanCells,
      cleanCells_eq, List.map_map, List.forall₂_map_left_iff, List.forall₂_map_right_iff]
    exact List.forall₂_same.mpr fun cell _ key => Cell.get?_clean_clean c₁ c₂ cell key
  document key hkey := by
    rw [get?_cleaned, get?_cleaned, get?_cleaned, if_neg hkey, if_neg hkey, if_neg hkey]
    by_cases hmetadata : key = "metadata"
    · simp only [if_pos hmetadata, cleanDocumentField_cleanDocumentField]
    · simp only [if_neg hmetadata]

variable {c₁ c₂}

/-- Two passes under valid configurations succeed and give the notebook, up to the order of entries,
that one pass under their meet gives, which is valid; so the order of the passes does not matter. -/
theorem clean_clean_same_clean_meet (h₁ : c₁.Valid) (h₂ : c₂.Valid) (h : nb.DistinctKeys) :
    (c₁.meet c₂).Valid ∧ ∃ n₁ n₂ n₁₂ n₂₁ m, nb.clean c₁ = .ok n₁ ∧ n₁.clean c₂ = .ok n₁₂ ∧
      nb.clean c₂ = .ok n₂ ∧ n₂.clean c₁ = .ok n₂₁ ∧ nb.clean (c₁.meet c₂) = .ok m ∧
      n₁₂.same m ∧ n₁₂.same n₂₁ := by
  have hmeet : (c₁.meet c₂).Valid := h₁.meet h₂
  refine ⟨hmeet, nb.cleaned c₁, nb.cleaned c₂, (nb.cleaned c₁).cleaned c₂,
    (nb.cleaned c₂).cleaned c₁, nb.cleaned (c₁.meet c₂), clean_of_valid h₁ _, clean_of_valid h₂ _,
    clean_of_valid h₂ _, clean_of_valid h₁ _, clean_of_valid hmeet _, ?_, ?_⟩
  · exact (alike_cleaned_cleaned c₁ c₂ nb).same ((h.cleaned c₁).cleaned c₂) (h.cleaned _)
  · have hother := alike_cleaned_cleaned c₂ c₁ nb
    rw [c₂.meet_comm c₁] at hother
    exact ((alike_cleaned_cleaned c₁ c₂ nb).trans hother.symm).same ((h.cleaned c₁).cleaned c₂)
      ((h.cleaned c₂).cleaned c₁)

/-- A pass that keeps counts and all metadata of cells. -/
def countsPass : Config where
  preserveCounts := true
  cellMetadata := .preserveAll

/-- A pass that keeps outputs and the tags of cells that are not blank. -/
def outputsPass : Config where
  removeEmptyCells := true
  preserveOutputs := true
  cellMetadata := .preserve (.ofList ["tags"])

theorem clean_clean_same_clean_meet_oddShapes :
    countsPass.Valid ∧ outputsPass.Valid ∧ oddShapes.DistinctKeys ∧
    (countsPass.meet outputsPass).Valid ∧ ∃ n₁ n₂ n₁₂ n₂₁ m, oddShapes.clean countsPass = .ok n₁ ∧
      n₁.clean outputsPass = .ok n₁₂ ∧ oddShapes.clean outputsPass = .ok n₂ ∧
      n₂.clean countsPass = .ok n₂₁ ∧ oddShapes.clean (countsPass.meet outputsPass) = .ok m ∧
      n₁₂.same m ∧ n₁₂.same n₂₁ :=
  ⟨by decide, by decide, by decide, clean_clean_same_clean_meet (by decide) (by decide) (by decide)⟩

end Notebook

end NotebookCleaning
