import NotebookCleaning.Proofs.CleanedCell
import NotebookCleaning.Proofs.CleanedDocument
import NotebookCleaning.Proofs.Same

/-!
# The order of keys never matters

A value is rearranged by giving the entries of its objects another order, at any depth. Cleaning
looks fields up, changes them in their place and filters them, and each of these takes rearranged
objects to rearranged objects. So what is cleaned of two notebooks that differ in the order of keys
differs in the order of keys, and a check finds the same in both: only the fields of the metadata of
one cell may be listed in another order (`clean_and_check_of_same`).
-/

namespace NotebookCleaning

namespace Json

open Object

/-- The second value is the first one with the entries of its objects in some order, and neither of
them repeats a key. -/
structure Rearranged (v w : Json) : Prop where
  left : v.distinctKeys
  right : w.distinctKeys
  same : v.same w

/-- Two values that are rearranged or both missing. -/
abbrev RearrangedField (v? w? : Option Json) : Prop := Option.Rel Rearranged v? w?

variable {v w : Json} {v? w? : Option Json} {o p : Object} {xs ys : List Json}

theorem Rearranged.refl (h : v.distinctKeys) : v.Rearranged v := ⟨h, h, same_refl h⟩

theorem rearranged_arr_iff :
    (Json.arr xs).Rearranged (.arr ys) ↔ List.Forall₂ Rearranged xs ys := by
  constructor
  · rintro ⟨hxs, hys, hsame⟩
    rw [distinctKeys_arr_iff] at hxs hys
    rw [same_arr_iff, List.forall₂_iff_get] at hsame
    refine List.forall₂_iff_get.mpr ⟨hsame.1, fun i hi hj => ?_⟩
    exact ⟨hxs _ (List.get_mem _ _), hys _ (List.get_mem _ _), hsame.2 i hi hj⟩
  · intro h
    induction h with
    | nil => exact .refl rfl
    | cons hvw _ ih =>
      refine ⟨distinctKeys_arr_iff.mpr ?_, distinctKeys_arr_iff.mpr ?_, same_arr_iff.mpr ?_⟩
      · exact List.forall_mem_cons.mpr ⟨hvw.left, distinctKeys_arr_iff.mp ih.left⟩
      · exact List.forall_mem_cons.mpr ⟨hvw.right, distinctKeys_arr_iff.mp ih.right⟩
      · exact .cons hvw.same (same_arr_iff.mp ih.same)

/-- Objects are rearranged if every look-up finds rearranged values. -/
theorem rearranged_obj_iff : (Json.obj o).Rearranged (.obj p) ↔
    (keys o).Nodup ∧ (keys p).Nodup ∧ ∀ key, RearrangedField (get? o key) (get? p key) := by
  constructor
  · rintro ⟨ho, hp, hsame⟩
    have hkeys := nodup_keys_of_distinctKeys ho
    have hkeys' := nodup_keys_of_distinctKeys hp
    refine ⟨hkeys, hkeys', fun key => ?_⟩
    have hfield := (same_obj_iff hkeys hkeys').mp hsame key
    have hleft : ∀ v, get? o key = some v → v.distinctKeys := fun _ => distinctKeys_of_get? ho
    have hright : ∀ w, get? p key = some w → w.distinctKeys := fun _ => distinctKeys_of_get? hp
    generalize get? o key = v?, get? p key = w? at hfield hleft hright
    cases hfield with
    | none => exact .none
    | some hvw => exact .some ⟨hleft _ rfl, hright _ rfl, hvw⟩
  · rintro ⟨ho, hp, hfields⟩
    have hall (key : String) : (∀ v, get? o key = some v → v.distinctKeys) ∧
        (∀ w, get? p key = some w → w.distinctKeys) ∧ SameField (get? o key) (get? p key) := by
      have hfield := hfields key
      generalize get? o key = v?, get? p key = w? at hfield
      cases hfield with
      | none => exact ⟨nofun, nofun, .none⟩
      | some hvw =>
        exact ⟨fun _ hv => Option.some.inj hv ▸ hvw.left,
          fun _ hw => Option.some.inj hw ▸ hvw.right, .some hvw.same⟩
    exact ⟨distinctKeys_obj_iff_get?.mpr ⟨ho, fun key => (hall key).1⟩,
      distinctKeys_obj_iff_get?.mpr ⟨hp, fun key => (hall key).2.1⟩,
      (same_obj_iff ho hp).mpr fun key => (hall key).2.2⟩

theorem Rearranged.get? (h : (Json.obj o).Rearranged (.obj p)) (key : String) :
    RearrangedField (Object.get? o key) (Object.get? p key) :=
  (rearranged_obj_iff.mp h).2.2 key

/-- Rearranged values are equal, or both arrays, or both objects. -/
@[elab_as_elim]
theorem Rearranged.cases {motive : ∀ v w : Json, v.Rearranged w → Prop}
    (scalar : ∀ v (h : v.Rearranged v), v.kind ≠ .array → v.kind ≠ .object → motive v v h)
    (arr : ∀ xs ys (h : (Json.arr xs).Rearranged (.arr ys)), motive _ _ h)
    (obj : ∀ o p (h : (Json.obj o).Rearranged (.obj p)), motive _ _ h)
    {v w : Json} (h : v.Rearranged w) : motive v w h := by
  have hsame := h.same
  cases v <;> cases w <;> simp only [Json.same, Bool.false_eq_true, beq_iff_eq] at hsame
  case arr.arr => exact arr _ _ h
  case obj.obj => exact obj _ _ h
  all_goals
    subst_vars
    exact scalar _ h (by rintro ⟨⟩) (by rintro ⟨⟩)

/-- What does not depend on the order of keys is read off alike from the items of both arrays. -/
theorem map_eq_of_rearranged {α : Type} {f : Json → α} (hf : ∀ v w, v.Rearranged w → f v = f w)
    (h : (Json.arr xs).Rearranged (.arr ys)) : xs.map f = ys.map f := by
  rw [← List.forall₂_eq_eq_eq, List.forall₂_map_left_iff, List.forall₂_map_right_iff]
  exact (rearranged_arr_iff.mp h).imp hf

theorem Rearranged.isNull_eq (h : v.Rearranged w) : v.isNull = w.isNull := by
  cases h using Rearranged.cases <;> rfl

/-! ## What is done to objects -/

theorem rearranged_onObject {f : Object → Object}
    (hf : ∀ o p, (Json.obj o).Rearranged (.obj p) → (Json.obj (f o)).Rearranged (.obj (f p)))
    (h : v.Rearranged w) : (onObject f v).Rearranged (onObject f w) := by
  cases h using Rearranged.cases with
  | scalar v h harr hobj =>
    cases v with
    | obj o => exact absurd rfl hobj
    | _ => exact h
  | arr xs ys h => exact h
  | obj o p h => exact hf o p h

theorem rearranged_modify {f : Json → Json} (k : String)
    (hf : ∀ v w, v.Rearranged w → (f v).Rearranged (f w)) (h : (Json.obj o).Rearranged (.obj p)) :
    (Json.obj (modify k f o)).Rearranged (.obj (modify k f p)) := by
  obtain ⟨ho, hp, hfields⟩ := rearranged_obj_iff.mp h
  refine rearranged_obj_iff.mpr ⟨by rwa [keys_modify], by rwa [keys_modify], fun key => ?_⟩
  have hfield := hfields key
  rw [get?_modify, get?_modify]
  split
  · generalize Object.get? o key = v?, Object.get? p key = w? at hfield
    cases hfield with
    | none => exact .none
    | some hvw => exact .some (hf _ _ hvw)
  · exact hfield

theorem rearranged_restrict (keep : String → Bool) (h : (Json.obj o).Rearranged (.obj p)) :
    (Json.obj (restrict keep o)).Rearranged (.obj (restrict keep p)) := by
  obtain ⟨ho, hp, hfields⟩ := rearranged_obj_iff.mp h
  refine rearranged_obj_iff.mpr ⟨?_, ?_, fun key => ?_⟩
  · rw [keys_restrict]
    exact ho.filter _
  · rw [keys_restrict]
    exact hp.filter _
  · rw [get?_restrict, get?_restrict]
    split
    · exact hfields key
    · exact .none

theorem rearranged_clearCount (h : v.Rearranged w) : (clearCount v).Rearranged (clearCount w) :=
  rearranged_onObject (fun _ _ => rearranged_modify _ fun _ _ _ => .refl rfl) h

theorem rearranged_clearCounts (h : v.Rearranged w) :
    (clearCounts v).Rearranged (clearCounts w) := by
  cases h using Rearranged.cases with
  | scalar v h harr hobj =>
    cases v with
    | arr xs => exact absurd rfl harr
    | _ => exact h
  | arr xs ys h =>
    refine rearranged_arr_iff.mpr ?_
    rw [List.forall₂_map_left_iff, List.forall₂_map_right_iff]
    exact (rearranged_arr_iff.mp h).imp fun _ _ => rearranged_clearCount
  | obj o p h => exact h

theorem rearranged_dropVersion (h : v.Rearranged w) :
    (dropVersion v).Rearranged (dropVersion w) := by
  have hinfo : ∀ v w : Json, v.Rearranged w →
      (onObject (erase "version") v).Rearranged (onObject (erase "version") w) := by
    exact fun _ _ => rearranged_onObject fun _ _ => rearranged_restrict (· != "version")
  exact rearranged_onObject (fun _ _ => rearranged_modify _ hinfo) h

/-- What an object that is looked up turns out to be. -/
theorem rearranged_object? (h : RearrangedField v? w?) :
    Option.Rel (fun o p => (Json.obj o).Rearranged (.obj p)) (v?.bind object?)
      (w?.bind object?) := by
  cases h with
  | none => exact .none
  | @some v w h =>
    cases h using Rearranged.cases with
    | scalar v h harr hobj =>
      cases v with
      | obj o => exact absurd rfl hobj
      | _ => exact .none
    | arr xs ys h => exact .none
    | obj o p h => exact .some h

end Json

open Object Json

variable {c : Config}

namespace Cell

variable {a b : Cell}

/-! ## Cells -/

theorem rearranged_keptMetadata {v? w? : Option Json} (fields : FieldSet)
    (h : RearrangedField v? w?) : (keptMetadata fields v?).Rearranged (keptMetadata fields w?) := by
  have hobject := rearranged_object? h
  unfold keptMetadata
  generalize v?.bind object? = o?, w?.bind object? = p? at hobject
  cases hobject with
  | none => exact .refl rfl
  | some h => exact rearranged_restrict _ h

theorem rearranged_cleanField {code : Bool} {key : String} {v? w? : Option Json}
    (h : RearrangedField v? w?) :
    RearrangedField (cleanField c code key v?) (cleanField c code key w?) := by
  cases key using field_cases with
  | executionCount =>
    rw [cleanField_executionCount, cleanField_executionCount]
    split
    · exact .some (.refl rfl)
    · exact h
  | outputs =>
    rw [cleanField_outputs, cleanField_outputs]
    split
    · exact .some (.refl rfl)
    · split
      · cases h with
        | none => exact .none
        | some h => exact .some (rearranged_clearCounts h)
      · exact h
  | metadata =>
    rw [cleanField_metadata, cleanField_metadata]
    cases c.cellMetadata with
    | strip => exact .some (.refl rfl)
    | preserveAll => exact h
    | preserve fields => exact .some (rearranged_keptMetadata fields h)
  | other key hcount houtputs hmetadata =>
    rw [cleanField_of_ne c code v? hcount houtputs hmetadata,
      cleanField_of_ne c code w? hcount houtputs hmetadata]
    exact h

theorem isCode_eq_of_rearranged (h : (Json.obj a).Rearranged (.obj b)) : a.isCode = b.isCode := by
  refine isCode_eq_of_same ?_
  have hfield := h.get? "cell_type"
  generalize get? a "cell_type" = v?, get? b "cell_type" = w? at hfield
  cases hfield with
  | none => exact .none
  | some h => exact .some h.same

theorem rearranged_clean (h : (Json.obj a).Rearranged (.obj b)) :
    (Json.obj (a.clean c)).Rearranged (.obj (b.clean c)) := by
  obtain ⟨ha, hb, hfields⟩ := rearranged_obj_iff.mp h
  refine rearranged_obj_iff.mpr ⟨?_, ?_, fun key => ?_⟩
  · rw [keys_clean]
    exact nodup_cleanKeys ha
  · rw [keys_clean]
    exact nodup_cleanKeys hb
  · rw [get?_clean, get?_clean, isCode_eq_of_rearranged h]
    exact rearranged_cleanField (hfields key)

theorem isBlankLine_eq_of_rearranged (v w : Json) (h : v.Rearranged w) :
    Source.isBlankLine v = Source.isBlankLine w := by
  cases h using Rearranged.cases <;> rfl

theorem isBlank_eq_of_rearranged (h : (Json.obj a).Rearranged (.obj b)) :
    a.isBlank = b.isBlank := by
  have hfield := h.get? "source"
  unfold isBlank source
  generalize get? a "source" = v?, get? b "source" = w? at hfield
  cases hfield with
  | none => rfl
  | some h =>
    cases h using Rearranged.cases with
    | scalar v h harr hobj => rfl
    | arr xs ys h =>
      have hlines := congrArg (List.all · id) (map_eq_of_rearranged isBlankLine_eq_of_rearranged h)
      rwa [List.all_map, List.all_map, Function.id_comp] at hlines
    | obj o p h => rfl

theorem isSome_executionCount?_eq_of_rearranged (h : (Json.obj a).Rearranged (.obj b)) :
    a.executionCount?.isSome = b.executionCount?.isSome := by
  have hfield := h.get? "execution_count"
  unfold executionCount?
  generalize get? a "execution_count" = v?, get? b "execution_count" = w? at hfield
  cases hfield with
  | none => rfl
  | some h => simp [Option.filter, h.isNull_eq, apply_ite Option.isSome]

theorem hasOutputs_eq_of_rearranged (h : (Json.obj a).Rearranged (.obj b)) :
    a.hasOutputs = b.hasOutputs := by
  have hfield := h.get? "outputs"
  unfold hasOutputs
  generalize get? a "outputs" = v?, get? b "outputs" = w? at hfield
  cases hfield with
  | none => rfl
  | some h =>
    cases h using Rearranged.cases with
    | scalar v h harr hobj => rfl
    | arr xs ys h =>
      have hlength := (rearranged_arr_iff.mp h).length_eq
      cases xs <;> cases ys <;> simp at hlength <;> rfl
    | obj o p h => rfl

theorem isCountedOutput_eq_of_rearranged (v w : Json) (h : v.Rearranged w) :
    isCountedOutput v = isCountedOutput w := by
  cases h using Rearranged.cases with
  | scalar v h harr hobj => rfl
  | arr xs ys h => rfl
  | obj o p h => exact isSome_executionCount?_eq_of_rearranged h

theorem countedOutputs_eq_of_rearranged (h : (Json.obj a).Rearranged (.obj b)) :
    a.countedOutputs = b.countedOutputs := by
  have hfield := h.get? "outputs"
  unfold countedOutputs
  generalize get? a "outputs" = v?, get? b "outputs" = w? at hfield
  cases hfield with
  | none => rfl
  | some h =>
    cases h using Rearranged.cases with
    | scalar v h harr hobj => rfl
    | arr xs ys h =>
      have hcounted := congrArg (List.countP id)
        (map_eq_of_rearranged isCountedOutput_eq_of_rearranged h)
      rwa [List.countP_map, List.countP_map, Function.id_comp] at hcounted
    | obj o p h => rfl

theorem codeFindings_eq_of_rearranged (h : (Json.obj a).Rearranged (.obj b)) :
    codeFindings c a = codeFindings c b := by
  rw [codeFindings, codeFindings, isSome_executionCount?_eq_of_rearranged h,
    hasOutputs_eq_of_rearranged h, countedOutputs_eq_of_rearranged h]

/-- The metadata of both cells have the same fields, so the same of them are found. -/
theorem exists_metadataFindings (p : MetadataPolicy) (h : (Json.obj a).Rearranged (.obj b)) :
    ∃ fs gs : List String, fs.Perm gs ∧ metadataFindings p a = fs.map .metadata ∧
      metadataFindings p b = gs.map .metadata := by
  have hobject := rearranged_object? (h.get? "metadata")
  unfold metadataFindings metadata?
  generalize (get? a "metadata").bind object? = o?,
    (get? b "metadata").bind object? = p? at hobject
  cases hobject with
  | none => exact ⟨[], [], .nil, rfl, rfl⟩
  | some h =>
    obtain ⟨ho, hp, hfields⟩ := rearranged_obj_iff.mp h
    exact ⟨_, _, (perm_keys_of_rel ho hp hfields).filter _, rfl, rfl⟩

/-- The findings in two rearranged cells begin alike and end with the same fields. -/
theorem exists_findings (h : (Json.obj a).Rearranged (.obj b)) :
    ∃ (common : List CellFinding) (fs gs : List String), fs.Perm gs ∧
      a.findings c = common ++ fs.map .metadata ∧ b.findings c = common ++ gs.map .metadata := by
  obtain ⟨fs, gs, hperm, hfs, hgs⟩ := exists_metadataFindings c.cellMetadata h
  refine ⟨_, fs, gs, hperm, congrArg _ hfs, ?_⟩
  rw [findings, hgs, isBlank_eq_of_rearranged h, isCode_eq_of_rearranged h,
    codeFindings_eq_of_rearranged h]

end Cell

/-! ## Reports -/

namespace Finding

/-- Two reports with the same findings, each as often, in which other findings than those about the
metadata fields of one cell stand at the same places. -/
structure Reordered (fs gs : List Finding) : Prop where
  perm : fs.Perm gs
  places : List.Forall₂
    (fun f g => f = g ∨ ∃ i m n, f = .inCell i (.metadata m) ∧ g = .inCell i (.metadata n)) fs gs

variable {fs gs fs' gs' : List Finding}

theorem Reordered.refl (fs : List Finding) : Reordered fs fs :=
  ⟨.refl fs, List.forall₂_same.mpr fun _ _ => .inl rfl⟩

theorem Reordered.append (h : Reordered fs gs) (h' : Reordered fs' gs') :
    Reordered (fs ++ fs') (gs ++ gs') :=
  ⟨h.perm.append h'.perm, List.rel_append h.places h'.places⟩

theorem reordered_metadata {ms ns : List String} (h : ms.Perm ns) (i : Nat) :
    Reordered ((ms.map .metadata).map (.inCell i)) ((ns.map .metadata).map (.inCell i)) := by
  refine ⟨(h.map _).map _, ?_⟩
  simp only [List.map_map, List.forall₂_map_left_iff, List.forall₂_map_right_iff]
  refine List.forall₂_iff_get.mpr ⟨h.length_eq, fun j hj hj' => ?_⟩
  exact .inr ⟨i, _, _, rfl, rfl⟩

end Finding

namespace Notebook

variable {a b : Notebook}

/-- Cells that are rearranged one by one are reported alike, from whatever index they begin. -/
theorem reordered_cells {xs ys : List Cell}
    (h : List.Forall₂ (fun x y => (Json.obj x).Rearranged (.obj y)) xs ys) (n : Nat) :
    Finding.Reordered
      ((xs.zipIdx n).flatMap fun cell => (cell.1.findings c).map (.inCell cell.2))
      ((ys.zipIdx n).flatMap fun cell => (cell.1.findings c).map (.inCell cell.2)) := by
  induction h generalizing n with
  | nil => exact .refl []
  | cons hcell _ ih =>
    simp only [List.zipIdx_cons, List.flatMap_cons]
    refine .append ?_ (ih (n + 1))
    obtain ⟨common, fs, gs, hperm, hfs, hgs⟩ := Cell.exists_findings (c := c) hcell
    rw [hfs, hgs, List.map_append, List.map_append]
    exact .append (.refl _) (Finding.reordered_metadata hperm n)

/-- The cells that are kept of rearranged ones are rearranged. -/
theorem rearranged_keptCells {xs ys : List Cell}
    (h : List.Forall₂ (fun x y => (Json.obj x).Rearranged (.obj y)) xs ys) :
    List.Forall₂ (fun x y => (Json.obj x).Rearranged (.obj y)) (keptCells c xs)
      (keptCells c ys) := by
  unfold keptCells
  split
  · refine List.rel_filter (fun x y hcell => ?_) h
    simp only [Cell.isBlank_eq_of_rearranged hcell]
  · exact h

theorem rearranged_cells (h : a.toJson.Rearranged b.toJson) :
    List.Forall₂ (fun x y => (Json.obj x).Rearranged (.obj y)) a.cells b.cells := by
  have hfield := h.get? "cells"
  rw [a.get?_cells, b.get?_cells, RearrangedField, Option.rel_some_some, rearranged_arr_iff,
    List.forall₂_map_left_iff, List.forall₂_map_right_iff] at hfield
  exact hfield

theorem rearranged_cleanDocumentField {v? w? : Option Json} (h : RearrangedField v? w?) :
    RearrangedField (cleanDocumentField c v?) (cleanDocumentField c w?) := by
  unfold cleanDocumentField
  split
  · exact .some (.refl rfl)
  · split
    · exact h
    · cases h with
      | none => exact .none
      | some h => exact .some (rearranged_dropVersion h)

theorem rearranged_cleaned (h : a.toJson.Rearranged b.toJson) :
    (a.cleaned c).toJson.Rearranged (b.cleaned c).toJson := by
  obtain ⟨ha, hb, hfields⟩ := rearranged_obj_iff.mp h
  have hkeys {nb : Notebook} (hnb : (keys nb.root).Nodup) : (keys (nb.cleaned c).root).Nodup := by
    rw [keys_cleaned]
    split
    · exact nodup_withKey hnb
    · exact hnb
  refine rearranged_obj_iff.mpr ⟨hkeys ha, hkeys hb, fun key => ?_⟩
  rw [get?_cleaned, get?_cleaned]
  split
  · refine .some (rearranged_arr_iff.mpr ?_)
    rw [cleanCells_eq, cleanCells_eq]
    simp only [List.forall₂_map_left_iff, List.forall₂_map_right_iff]
    exact (rearranged_keptCells (rearranged_cells h)).imp fun _ _ => Cell.rearranged_clean
  · split
    · exact rearranged_cleanDocumentField (hfields key)
    · exact hfields key

theorem rearranged_metadata? (h : a.toJson.Rearranged b.toJson) :
    Option.Rel (fun m n => (Json.obj m).Rearranged (.obj n)) a.metadata? b.metadata? :=
  rearranged_object? (h.get? "metadata")

theorem isSome_languageVersion?_eq (h : a.toJson.Rearranged b.toJson) :
    a.languageVersion?.isSome = b.languageVersion?.isSome := by
  have hmetadata := rearranged_metadata? h
  unfold languageVersion?
  generalize a.metadata? = m?, b.metadata? = n? at hmetadata
  cases hmetadata with
  | none => rfl
  | @some m n h =>
    have hinfo := rearranged_object? (h.get? "language_info")
    simp only [Option.bind_eq_bind, Option.bind_some]
    generalize (get? m "language_info").bind object? = i?,
      (get? n "language_info").bind object? = j? at hinfo
    cases hinfo with
    | none => rfl
    | @some i j h =>
      have hversion := h.get? "version"
      simp only [Option.bind_some]
      generalize get? i "version" = v?, get? j "version" = w? at hversion
      cases hversion <;> rfl

theorem documentFindings_eq_of_rearranged (h : a.toJson.Rearranged b.toJson) :
    documentFindings c a = documentFindings c b := by
  have hempty : (a.metadata?.map fun m => !m.isEmpty) = b.metadata?.map fun m => !m.isEmpty := by
    have hmetadata := rearranged_metadata? h
    generalize a.metadata? = m?, b.metadata? = n? at hmetadata
    cases hmetadata with
    | none => rfl
    | @some m n h =>
      obtain ⟨hm, hn, hfields⟩ := rearranged_obj_iff.mp h
      have hlength := (perm_keys_of_rel hm hn hfields).length_eq
      cases m <;> cases n <;> simp at hlength <;> rfl
  rw [documentFindings, documentFindings, hempty, isSome_languageVersion?_eq h]

theorem reordered_findings (h : a.toJson.Rearranged b.toJson) :
    Finding.Reordered (a.findings c) (b.findings c) := by
  rw [findings, findings, documentFindings_eq_of_rearranged h]
  exact .append (reordered_cells (rearranged_cells h) 0) (.refl _)

/-- Two notebooks that are the same up to the order of entries are so after cleaning, and a check
reports the same in both: every finding as often, and at the same place unless it is about a
metadata field of a cell. -/
theorem clean_and_check_of_same (hc : c.Valid) (ha : a.DistinctKeys) (hb : b.DistinctKeys)
    (h : a.same b) : ∃ a' b' fs gs, a.clean c = .ok a' ∧ b.clean c = .ok b' ∧ a'.same b' ∧
      a.check c = .ok fs ∧ b.check c = .ok gs ∧ Finding.Reordered fs gs ∧ (fs = [] ↔ gs = []) := by
  have hnb : a.toJson.Rearranged b.toJson := ⟨ha, hb, h⟩
  have hreports := reordered_findings (c := c) hnb
  refine ⟨a.cleaned c, b.cleaned c, a.findings c, b.findings c, clean_of_valid hc a,
    clean_of_valid hc b, (rearranged_cleaned hnb).same, check_of_valid hc a, check_of_valid hc b,
    hreports, ?_⟩
  rw [← List.length_eq_zero_iff, hreports.perm.length_eq, List.length_eq_zero_iff]

/-- A counted cell with two metadata fields. -/
def twoFields : Notebook where
  root := [("cells", .arr [.obj [("cell_type", .str "code"), ("execution_count", .num "1"),
      ("metadata", .obj [("tags", .null), ("slide", .obj [("a", .null), ("b", .null)])])]]),
    ("metadata", .obj [("language_info", .obj [("name", .null), ("version", .str "3.9")])])]
  shape := defect?_eq_none_iff.mp rfl

/-- The same with every object the other way round, so the two fields are found in that order. -/
def twoFieldsTurned : Notebook where
  root := [("metadata", .obj [("language_info", .obj [("version", .str "3.9"), ("name", .null)])]),
    ("cells", .arr [.obj [
      ("metadata", .obj [("slide", .obj [("b", .null), ("a", .null)]), ("tags", .null)]),
      ("execution_count", .num "1"), ("cell_type", .str "code")]])]
  shape := defect?_eq_none_iff.mp rfl

theorem clean_and_check_of_same_turned : Config.Valid {} ∧ twoFields.DistinctKeys ∧
    twoFieldsTurned.DistinctKeys ∧ twoFields.same twoFieldsTurned ∧
    ∃ a' b' fs gs, twoFields.clean {} = .ok a' ∧ twoFieldsTurned.clean {} = .ok b' ∧ a'.same b' ∧
      twoFields.check {} = .ok fs ∧ twoFieldsTurned.check {} = .ok gs ∧
      Finding.Reordered fs gs ∧ (fs = [] ↔ gs = []) :=
  ⟨by decide, by decide, by decide, by decide,
    clean_and_check_of_same (by decide) (by decide) (by decide) (by decide)⟩

end Notebook

end NotebookCleaning
