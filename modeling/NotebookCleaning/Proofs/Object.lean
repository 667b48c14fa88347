import Mathlib.Data.List.Nodup
import NotebookCleaning.Json.Basic

/-!
# Objects by their keys and look-ups

Each operation on objects is described twice: by the list of keys it leaves and by what a look-up
finds afterwards. If no key is repeated these two determine an object (`ext_of_keys`), so later
modules compare objects key by key and never take their entries apart.
-/

namespace NotebookCleaning.Object

variable {o p : Object} {k key : String} {v w : Json}

@[simp] theorem get?_nil (key : String) : get? [] key = none := rfl

@[simp] theorem keys_nil : keys [] = [] := rfl

@[simp] theorem keys_cons (e : String × Json) (o : Object) : keys (e :: o) = e.1 :: keys o := rfl

@[simp] theorem restrict_nil (keep : String → Bool) : restrict keep [] = [] := rfl

theorem keys_eq_nil_iff : keys o = [] ↔ o = [] := List.map_eq_nil_iff

/-- The keys of an object to which `k` is added unless it is among them. -/
def withKey (k : String) (ks : List String) : List String := if k ∈ ks then ks else ks ++ [k]

theorem nodup_withKey {ks : List String} (h : ks.Nodup) : (withKey k ks).Nodup := by
  unfold withKey
  split
  · exact h
  · next hk =>
    refine List.nodup_append.mpr ⟨h, List.nodup_singleton k, ?_⟩
    intro a ha b hb heq
    rw [List.mem_singleton.mp hb] at heq
    exact hk (heq ▸ ha)

theorem get?_eq_none_iff : get? o key = none ↔ key ∉ keys o := by
  induction o with
  | nil => simp
  | cons e es ih =>
    rw [get?_cons, keys_cons, List.mem_cons, not_or, ← ih]
    by_cases h : key = e.1
    · simp [h]
    · simp [h]

theorem mem_keys_iff : key ∈ keys o ↔ ∃ v, get? o key = some v := by
  rw [← Option.ne_none_iff_exists', ne_eq, get?_eq_none_iff, not_not]

theorem mem_keys_of_get? (h : get? o key = some v) : key ∈ keys o := mem_keys_iff.mpr ⟨v, h⟩

theorem mem_of_get? (h : get? o key = some v) : (key, v) ∈ o := by
  induction o with
  | nil => cases h
  | cons e es ih =>
    rw [get?_cons] at h
    by_cases hk : key = e.1
    · rw [if_pos hk, Option.some.injEq] at h
      subst hk h
      exact List.mem_cons_self
    · rw [if_neg hk] at h
      exact List.mem_cons_of_mem _ (ih h)

theorem get?_of_mem (ho : (keys o).Nodup) (h : (key, v) ∈ o) : get? o key = some v := by
  induction o with
  | nil => cases h
  | cons e es ih =>
    rw [keys_cons, List.nodup_cons] at ho
    rw [get?_cons]
    rcases List.mem_cons.mp h with rfl | hmem
    · rw [if_pos rfl]
    · have hne : key ≠ e.1 := by
        rintro rfl
        exact ho.1 (List.mem_map.mpr ⟨_, hmem, rfl⟩)
      rw [if_neg hne]
      exact ih ho.2 hmem

/-- An object without repeated keys is determined by its keys, in order, and by its look-ups. -/
theorem ext_of_keys (ho : (keys o).Nodup) (hkeys : keys o = keys p)
    (hget : ∀ key, get? o key = get? p key) : o = p := by
  induction o generalizing p with
  | nil => exact (List.map_eq_nil_iff.mp hkeys.symm).symm
  | cons e es ih =>
    cases p with
    | nil => cases hkeys
    | cons f fs =>
      obtain ⟨k, v⟩ := e
      obtain ⟨k', w⟩ := f
      obtain ⟨rfl, htail⟩ := List.cons.inj hkeys
      have hv : v = w := by simpa [get?_cons] using hget k
      subst hv
      rw [keys_cons, List.nodup_cons] at ho
      have htails : keys es = keys fs := htail
      have hk : k ∉ keys fs := by
        rw [← htails]
        exact ho.1
      rw [ih ho.2 htails]
      intro key
      by_cases h : key = k
      · subst h
        rw [get?_eq_none_iff.mpr ho.1, get?_eq_none_iff.mpr hk]
      · simpa only [get?_cons, if_neg h] using hget key

theorem keys_insert (k : String) (v : Json) (o : Object) :
    keys (insert k v o) = withKey k (keys o) := by
  induction o with
  | nil => rfl
  | cons e es ih =>
    obtain ⟨k', w⟩ := e
    by_cases h : k' = k
    · simp [insert, withKey, h]
    · simp only [insert, if_neg h, keys_cons, ih, withKey, List.mem_cons, Ne.symm h, false_or]
      split <;> rfl

theorem insert_of_notMem (h : k ∉ keys o) : insert k v o = o ++ [(k, v)] := by
  induction o with
  | nil => rfl
  | cons e es ih =>
    obtain ⟨k', w⟩ := e
    rw [keys_cons, List.mem_cons, not_or] at h
    rw [insert, if_neg (Ne.symm h.1), ih h.2, List.cons_append]

theorem nodup_keys_insert (ho : (keys o).Nodup) : (keys (insert k v o)).Nodup := by
  rw [keys_insert]
  exact nodup_withKey ho

@[simp] theorem keys_modify (k : String) (f : Json → Json) (o : Object) :
    keys (modify k f o) = keys o := by
  simp only [keys, modify, List.map_map]
  refine List.map_congr_left fun e _ => ?_
  simp only [Function.comp_apply]
  split <;> rfl

theorem keys_erase (k : String) (o : Object) : keys (erase k o) = (keys o).filter (· != k) := by
  simp only [keys, erase, List.filter_map]
  rfl

theorem keys_restrict (keep : String → Bool) (o : Object) :
    keys (restrict keep o) = (keys o).filter keep := by
  simp only [keys, restrict, List.filter_map]
  rfl

theorem nodup_keys_erase (ho : (keys o).Nodup) : (keys (erase k o)).Nodup := by
  rw [keys_erase]
  exact ho.filter _

theorem get?_restrict (keep : String → Bool) (o : Object) (key : String) :
    get? (restrict keep o) key = if keep key then get? o key else none := by
  induction o with
  | nil => simp [restrict]
  | cons e es ih =>
    obtain ⟨k, v⟩ := e
    by_cases hk : keep k
    · have hcons : restrict keep ((k, v) :: es) = (k, v) :: restrict keep es := by
        simp [restrict, hk]
      rw [hcons, get?_cons, get?_cons, ih]
      by_cases h : key = k
      · subst h; simp [hk]
      · simp [h]
    · have hcons : restrict keep ((k, v) :: es) = restrict keep es := by simp [restrict, hk]
      rw [hcons, get?_cons, ih]
      by_cases h : key = k
      · subst h; simp [hk]
      · simp [h]

/-! What holds of all values of an object goes on to hold of them after an edit. -/

section Values

variable {P : Json → Prop}

theorem forall_get?_insert (ho : ∀ key w, get? o key = some w → P w) (hv : P v) :
    ∀ key w, get? (insert k v o) key = some w → P w := by
  intro key w hw
  rw [get?_insert] at hw
  split at hw
  · cases hw
    exact hv
  · exact ho key w hw

theorem forall_get?_modify {f : Json → Json} (ho : ∀ key w, get? o key = some w → P w)
    (hf : ∀ v, get? o k = some v → P (f v)) :
    ∀ key w, get? (modify k f o) key = some w → P w := by
  intro key w hw
  rw [get?_modify] at hw
  split at hw
  · next hkey =>
    subst hkey
    obtain ⟨v, hv, rfl⟩ := Option.map_eq_some_iff.mp hw
    exact hf v hv
  · exact ho key w hw

theorem forall_get?_restrict (ho : ∀ key w, get? o key = some w → P w) (keep : String → Bool) :
    ∀ key w, get? (restrict keep o) key = some w → P w := by
  intro key w hw
  rw [get?_restrict] at hw
  split at hw
  · exact ho key w hw
  · cases hw

end Values

theorem get?_erase (k : String) (o : Object) (key : String) :
    get? (erase k o) key = if key = k then none else get? o key := by
  have h : erase k o = restrict (· != k) o := rfl
  rw [h, get?_restrict]
  by_cases hk : key = k <;> simp [hk]

theorem restrict_eq_self_iff {keep : String → Bool} :
    restrict keep o = o ↔ ∀ key ∈ keys o, keep key = true := by
  simp [restrict, List.filter_eq_self, keys]

theorem erase_eq_self_iff : erase k o = o ↔ get? o k = none := by
  rw [get?_eq_none_iff, show erase k o = restrict (· != k) o from rfl, restrict_eq_self_iff]
  constructor
  · intro h hk
    simpa using h k hk
  · intro h key hkey
    have hne : key ≠ k := fun heq => h (heq ▸ hkey)
    simpa using hne

/-- A change in place leaves an object alone exactly if it leaves the value under the key alone. -/
theorem modify_eq_self_iff (ho : (keys o).Nodup) {f : Json → Json} :
    modify k f o = o ↔ ∀ v, get? o k = some v → f v = v := by
  constructor
  · intro h v hv
    have hget := get?_modify o k k f
    rw [h, if_pos rfl, hv, Option.map_some, Option.some.injEq] at hget
    exact hget.symm
  · intro h
    refine ext_of_keys (by rwa [keys_modify]) (keys_modify k f o) fun key => ?_
    rw [get?_modify]
    split
    · next heq =>
      subst heq
      cases hv : get? o key with
      | none => rfl
      | some v => rw [Option.map_some, h v hv]
    · rfl

theorem insert_eq_self_iff : insert k v o = o ↔ get? o k = some v := by
  induction o with
  | nil => simp [insert]
  | cons e es ih =>
    obtain ⟨k', w⟩ := e
    by_cases h : k' = k
    · subst h
      simp [insert, get?_cons, eq_comm]
    · simp [insert, get?_cons, h, Ne.symm h, ih]

theorem restrict_restrict (keep keep' : String → Bool) (o : Object) :
    restrict keep (restrict keep' o) = restrict (fun key => keep key && keep' key) o :=
  List.filter_filter

theorem modify_modify (k : String) (f g : Json → Json) (o : Object) :
    modify k f (modify k g o) = modify k (f ∘ g) o := by
  simp only [modify, List.map_map]
  refine List.map_congr_left fun e _ => ?_
  by_cases h : e.1 = k <;> simp [h]

theorem modify_modify_of_ne (h : k ≠ key) (f g : Json → Json) (o : Object) :
    modify k f (modify key g o) = modify key g (modify k f o) := by
  simp only [modify, List.map_map]
  refine List.map_congr_left fun e _ => ?_
  by_cases hk : e.1 = k
  · simp [hk, h]
  · by_cases hkey : e.1 = key <;> simp [hk, hkey, Ne.symm h]

theorem modify_insert_of_ne (h : k ≠ key) (f : Json → Json) (v : Json) (o : Object) :
    modify k f (insert key v o) = insert key v (modify k f o) := by
  induction o with
  | nil => simp [insert, modify, h.symm]
  | cons e es ih =>
    obtain ⟨k', w⟩ := e
    have hcons (es : Object) : modify k f ((k', w) :: es) =
        (k', if k' = k then f w else w) :: modify k f es := by
      simp only [modify, List.map_cons]
      split <;> rfl
    by_cases hk : k' = key
    · subst hk
      rw [insert, if_pos rfl, hcons, insert, if_pos rfl]
      simp [modify, h.symm]
    · rw [insert, if_neg hk, hcons, hcons, insert, if_neg hk, ih]

theorem insert_insert (k : String) (v w : Json) (o : Object) :
    insert k v (insert k w o) = insert k v o := by
  induction o with
  | nil => simp [insert]
  | cons e es ih =>
    obtain ⟨k', u⟩ := e
    by_cases h : k' = k
    · simp [insert, h]
    · simp [insert, h, ih]

/-- A value is put under a key that is there without moving any other entry. -/
theorem insert_insert_of_ne (h : k ≠ key) (hk : k ∈ keys o) (v w : Json) :
    insert k v (insert key w o) = insert key w (insert k v o) := by
  induction o with
  | nil => cases hk
  | cons e es ih =>
    obtain ⟨k', u⟩ := e
    by_cases hk' : k' = k
    · subst hk'
      simp [insert, h]
    · have hes : k ∈ keys es := (List.mem_cons.mp hk).resolve_left (Ne.symm hk')
      by_cases hkey : k' = key
      · subst hkey
        simp [insert, Ne.symm h]
      · simp [insert, hk', hkey, ih hes]

/-- A value that is put under a key that is there has the same entries around it, whatever it is. -/
theorem exists_insert_eq_append (hk : k ∈ keys o) :
    ∃ front back : Object, ∀ v, insert k v o = front ++ (k, v) :: back := by
  induction o with
  | nil => cases hk
  | cons e es ih =>
    obtain ⟨k', u⟩ := e
    by_cases h : k' = k
    · exact ⟨[], es, fun v => by simp [insert, h]⟩
    · obtain ⟨front, back, hinsert⟩ := ih ((List.mem_cons.mp hk).resolve_left (Ne.symm h))
      exact ⟨(k', u) :: front, back, fun v => by simp [insert, h, hinsert]⟩

/-- What stands under a key once a value has been supplied for it. -/
def supplied (vacant : Json → Bool) (v : Json) : Option Json → Json
  | none => v
  | some w => if vacant w then v else w

/-- Puts a value under a key: behind the other entries if the key is missing, and in the place of
a vacant value. -/
def supply (k : String) (vacant : Json → Bool) (v : Json) (o : Object) : Object :=
  if k ∈ keys o then modify k (fun w => if vacant w then v else w) o else o ++ [(k, v)]

theorem keys_supply (k : String) (vacant : Json → Bool) (v : Json) (o : Object) :
    keys (supply k vacant v o) = withKey k (keys o) := by
  unfold supply withKey
  split
  · exact keys_modify k _ o
  · simp [keys]

theorem get?_supply (k : String) (vacant : Json → Bool) (v : Json) (o : Object) (key : String) :
    get? (supply k vacant v o) key =
      if key = k then some (supplied vacant v (get? o key)) else get? o key := by
  unfold supply
  by_cases hk : k ∈ keys o
  · rw [if_pos hk, get?_modify]
    by_cases h : key = k
    · subst h
      obtain ⟨w, hw⟩ := mem_keys_iff.mp hk
      simp [hw, supplied]
    · simp [h]
  · rw [if_neg hk, get?, List.lookup_append]
    change (get? o key).or (get? [(k, v)] key) = _
    rw [get?_cons, get?_nil]
    by_cases h : key = k
    · subst h
      simp [get?_eq_none_iff.mpr hk, supplied]
    · simp [h]

end NotebookCleaning.Object
