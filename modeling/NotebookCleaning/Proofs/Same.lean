import Mathlib.Data.List.Forall2
import Mathlib.Data.List.Perm.Subperm
import NotebookCleaning.Notebook.Cell
import NotebookCleaning.Proofs.DistinctKeys
import NotebookCleaning.Proofs.Object

/-!
# Equality up to the order of entries

Arrays are the same if they are so item by item. Objects without repeated keys are the same if every
look-up finds the same in both (`same_obj_iff`), so a statement about objects becomes one about a
single field.
-/

namespace NotebookCleaning

namespace Json

open Object

/-- Two values, each of which may be missing, are the same or are both missing. -/
abbrev SameField (v? w? : Option Json) : Prop := Option.Rel (fun v w => v.same w = true) v? w?

theorem sameItems_iff {xs ys : List Json} :
    sameItems xs ys ↔ List.Forall₂ (fun v w => v.same w = true) xs ys := by
  induction xs generalizing ys with
  | nil => cases ys <;> simp [sameItems]
  | cons x xs ih =>
    cases ys with
    | nil => simp [sameItems]
    | cons y ys => simp [sameItems, ih]

theorem same_arr_iff {xs ys : List Json} :
    (Json.arr xs).same (.arr ys) ↔ List.Forall₂ (fun v w => v.same w = true) xs ys := by
  rw [same, sameItems_iff]

theorem same_arr_map_iff {α : Type} {f g : α → Json} {xs ys : List α} :
    (Json.arr (xs.map f)).same (.arr (ys.map g)) ↔
      List.Forall₂ (fun a b => (f a).same (g b) = true) xs ys := by
  rw [same_arr_iff, List.forall₂_map_left_iff, List.forall₂_map_right_iff]

/-- Two ways to make items that tell the same pairs apart tell the same arrays apart. -/
theorem same_arr_map_congr {α : Type} {f g : α → Json} {xs ys : List α}
    (h : ∀ a ∈ xs, ∀ b ∈ ys, (f a).same (f b) ↔ (g a).same (g b)) :
    (Json.arr (xs.map f)).same (.arr (ys.map f)) ↔
      (Json.arr (xs.map g)).same (.arr (ys.map g)) := by
  rw [same_arr_map_iff, same_arr_map_iff, List.forall₂_iff_get, List.forall₂_iff_get]
  refine and_congr_right fun _ => ?_
  refine forall_congr' fun i => forall_congr' fun hi => forall_congr' fun hj => ?_
  exact h _ (List.get_mem _ _) _ (List.get_mem _ _)

theorem sameEntries_iff {es fs : Object} :
    sameEntries es fs ↔ ∀ e ∈ es, ∃ w, get? fs e.1 = some w ∧ e.2.same w := by
  induction es with
  | nil => simp [sameEntries]
  | cons e es ih =>
    rw [sameEntries, Bool.and_eq_true, ih, List.forall_mem_cons]
    refine and_congr_left fun _ => ?_
    rw [get?]
    split
    · next w hw => simp [hw]
    · next hnone => simp [hnone]

/-- Objects in which the same look-ups find something have the same keys. -/
theorem perm_keys_of_rel {R : Json → Json → Prop} {o p : Object} (ho : (keys o).Nodup)
    (hp : (keys p).Nodup) (h : ∀ key, Option.Rel R (get? o key) (get? p key)) :
    (keys o).Perm (keys p) := by
  refine (List.perm_ext_iff_of_nodup ho hp).mpr fun key => ?_
  have hfield := h key
  rw [← not_iff_not, ← get?_eq_none_iff, ← get?_eq_none_iff]
  cases ho : get? o key <;> cases hp : get? p key <;> simp_all

/-- Objects of one length that have no other keys than each other's have the same keys. -/
theorem same_obj_iff {o p : Object} (ho : (keys o).Nodup) (hp : (keys p).Nodup) :
    (Json.obj o).same (.obj p) ↔ ∀ key, SameField (get? o key) (get? p key) := by
  rw [same, Bool.and_eq_true, beq_iff_eq, sameEntries_iff]
  constructor
  · rintro ⟨hlength, hentries⟩ key
    have hsub : keys o ⊆ keys p := by
      intro k hk
      obtain ⟨e, he, rfl⟩ := List.mem_map.mp hk
      obtain ⟨w, hw, _⟩ := hentries e he
      exact mem_keys_of_get? hw
    have hperm : (keys o).Perm (keys p) := by
      apply (List.subperm_of_subset ho hsub).perm_of_length_le
      simp [keys, hlength]
    cases hget : get? o key with
    | none =>
      have hkey : key ∉ keys p := fun h => get?_eq_none_iff.mp hget (hperm.mem_iff.mpr h)
      rw [get?_eq_none_iff.mpr hkey]
      exact .none
    | some v =>
      obtain ⟨w, hw, hsame⟩ := hentries _ (mem_of_get? hget)
      rw [hw]
      exact .some hsame
  · intro hfields
    constructor
    · simpa [keys] using (perm_keys_of_rel ho hp hfields).length_eq
    · rintro ⟨key, v⟩ he
      have hfield := hfields key
      rw [get?_of_mem ho he] at hfield
      cases hget : get? p key with
      | none => rw [hget] at hfield; cases hfield
      | some w =>
        rw [hget, SameField, Option.rel_some_some] at hfield
        exact ⟨w, rfl, hfield⟩

theorem same_refl {v : Json} (h : v.distinctKeys) : v.same v := by
  induction v using Json.induction with
  | arr items ih =>
    rw [distinctKeys_arr_iff] at h
    exact same_arr_iff.mpr (List.forall₂_same.mpr fun v hv => ih v hv (h v hv))
  | obj o ih =>
    rw [distinctKeys_obj_iff] at h
    rw [same_obj_iff h.1 h.1]
    intro key
    cases hget : get? o key with
    | none => exact .none
    | some v =>
      have hv := mem_of_get? hget
      exact .some (ih _ hv (h.2 _ hv))
  | _ => simp [same]

/-- Objects in which every look-up finds the same are the same, in whatever order their entries
stand. -/
theorem same_of_get?_eq {o p : Object} (ho : (Json.obj o).distinctKeys)
    (hp : (keys p).Nodup) (h : ∀ key, get? o key = get? p key) : (Json.obj o).same (.obj p) := by
  rw [same_obj_iff (nodup_keys_of_distinctKeys ho) hp]
  intro key
  rw [← h key]
  cases hget : get? o key with
  | none => exact .none
  | some v => exact .some (same_refl (distinctKeys_of_get? ho hget))

theorem same_str_iff {s : String} {w : Json} : (Json.str s).same w ↔ w = .str s := by
  cases w with
  | str t =>
    rw [same, beq_iff_eq, Json.str.injEq]
    exact eq_comm
  | _ => simp [same]

theorem str_same_iff {s : String} {v : Json} : v.same (.str s) ↔ v = .str s := by
  cases v <;> simp [same]

end Json

theorem CellType.ofField_eq_of_same {v? w? : Option Json} (h : Json.SameField v? w?) :
    ofField v? = ofField w? := by
  cases h with
  | none => rfl
  | @some v w hsame =>
    by_cases hv : ∃ s, v = .str s
    · obtain ⟨s, rfl⟩ := hv
      rw [Json.same_str_iff.mp hsame]
    · have hw : ¬∃ s, w = .str s := by
        rintro ⟨s, rfl⟩
        exact hv ⟨s, Json.str_same_iff.mp hsame⟩
      cases v <;> cases w <;> simp_all [ofField]

/-- Whether a cell is a code cell depends on its type only up to the order of entries. -/
theorem Cell.isCode_eq_of_same {a b : Cell}
    (h : Json.SameField (Object.get? a "cell_type") (Object.get? b "cell_type")) :
    a.isCode = b.isCode := by
  rw [isCode, isCode, cellType, cellType, CellType.ofField_eq_of_same h]

end NotebookCleaning
