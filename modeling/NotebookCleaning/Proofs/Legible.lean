import NotebookCleaning.Proofs.DistinctKeys
import NotebookCleaning.Proofs.Numeral

/-!
# The values that a text can hold

A value is legible at a depth if it nests no deeper, stores its numbers as numerals, repeats no key
in an object and begins no object with `numberKey`. Every value that is read is legible at the depth
that the reader allows (`legible_of_parse`), so it has distinct keys at every depth.
-/

namespace NotebookCleaning

namespace Json

open Object Reader

/-- The values that a text with at most `depth` open brackets at a time can hold. -/
inductive Legible : Nat → Json → Prop where
  | null {depth : Nat} : Legible depth .null
  | bool {depth : Nat} (b : Bool) : Legible depth (.bool b)
  | num {depth : Nat} {text : String} : Numeral text → Legible depth (.num text)
  | str {depth : Nat} (s : String) : Legible depth (.str s)
  | arr {depth : Nat} {items : List Json} : (∀ v ∈ items, Legible depth v) →
    Legible (depth + 1) (.arr items)
  | obj {depth : Nat} {o : Object} : (keys o).Nodup → (keys o).head? ≠ some numberKey →
    (∀ e ∈ o, Legible depth e.2) → Legible (depth + 1) (.obj o)

variable {depth : Nat} {o : Object} {k : String} {v : Json}

theorem legible_arr_iff {items : List Json} :
    Legible (depth + 1) (.arr items) ↔ ∀ v ∈ items, Legible depth v := by
  constructor
  · rintro ⟨⟩
    assumption
  · exact .arr

/-- What makes an object legible, said by its keys and look-ups. -/
structure LegibleObject (depth : Nat) (o : Object) : Prop where
  nodup : (keys o).Nodup
  head : (keys o).head? ≠ some numberKey
  values : ∀ key v, get? o key = some v → Legible depth v

theorem legible_obj_iff : Legible (depth + 1) (.obj o) ↔ LegibleObject depth o := by
  constructor
  · rintro ⟨⟩
    next hnodup hhead hvalues =>
      exact ⟨hnodup, hhead, fun _ _ hv => hvalues _ (mem_of_get? hv)⟩
  · intro h
    exact .obj h.nodup h.head fun e he => h.values e.1 e.2 (get?_of_mem h.nodup he)

theorem legibleObject_nil : LegibleObject depth [] := ⟨List.nodup_nil, by simp, by simp⟩

theorem distinctKeys_of_legible (h : Legible depth v) : v.distinctKeys := by
  induction h with
  | arr _ ih => exact distinctKeys_arr_iff.mpr ih
  | obj hkeys _ _ ih => exact distinctKeys_obj_iff.mpr ⟨hkeys, ih⟩
  | _ => rfl

theorem head?_withKey (k : String) (ks : List String) :
    (withKey k ks).head? = some (ks.head?.getD k) := by
  unfold withKey
  cases ks with
  | nil => rfl
  | cons k' ks => split <;> rfl

/-- A key that is added to other keys does not come first. -/
theorem head?_withKey_ne {ks : List String} (h : ks.head? ≠ some numberKey)
    (hk : k ≠ numberKey ∨ ks ≠ []) : (withKey k ks).head? ≠ some numberKey := by
  rw [head?_withKey]
  cases ks with
  | nil =>
    rcases hk with hk | hk
    · simpa using hk
    · exact absurd rfl hk
  | cons k' ks => simpa using h

theorem LegibleObject.insert (h : LegibleObject depth o) (hv : Legible depth v)
    (hk : k ≠ numberKey ∨ o ≠ []) : LegibleObject depth (o.insert k v) where
  nodup := nodup_keys_insert h.nodup
  head := by
    rw [keys_insert]
    exact head?_withKey_ne h.head (hk.imp_right fun ho => mt keys_eq_nil_iff.mp ho)
  values := forall_get?_insert h.values hv

namespace Reader

open Read

variable {bs rest : List UInt8} {read : List UInt8 → Read Json}

/-- A reader all of whose values are legible. -/
def ReadsLegible (depth : Nat) (read : List UInt8 → Read Json) : Prop :=
  ∀ {bs v rest}, read bs = .ok (v, rest) → Legible depth v

theorem eq_of_word {letters : List UInt8} {v₀ : Json} (h : word letters v₀ bs = .ok (v, rest)) :
    v = v₀ := by
  fun_induction word letters v₀ bs with
  | case1 =>
    cases h
    rfl
  | case2 => cases h
  | case3 l ls rest' ih => exact ih h
  | case4 => cases h

theorem legible_array (hread : ReadsLegible depth read) (limit : Nat) :
    ReadsLegible (depth + 1) (array limit read) := by
  intro bs v rest h
  obtain ⟨items, bs', hitems, h⟩ := andThen_eq_ok_iff.mp h
  cases h
  have hlegible : ∀ v ∈ items, Legible depth v := by
    refine elements_preserves (P := fun acc => ∀ v ∈ acc, Legible depth v) ?_ (by simp) hitems
    intro acc bs a rest hacc h
    obtain ⟨v, bs', hv, h⟩ := andThen_eq_ok_iff.mp h
    cases h
    exact List.forall_mem_cons.mpr ⟨hread hv, hacc⟩
  exact .arr fun v hv => hlegible v (List.mem_reverse.mp hv)

theorem insert_ne_nil (k : String) (v : Json) (o : Object) : o.insert k v ≠ [] := by
  intro h
  have hkeys := keys_insert k v o
  have hhead := head?_withKey k (keys o)
  rw [h, keys_nil] at hkeys
  rw [← hkeys] at hhead
  cases hhead

theorem legible_member (hread : ReadsLegible depth read) {o p : Object} {key : String}
    (ho : LegibleObject depth o) (hkey : key ≠ numberKey ∨ o ≠ [])
    (h : member read o key bs = .ok (p, rest)) : LegibleObject depth p ∧ p ≠ [] := by
  obtain ⟨_, bs', -, h⟩ := andThen_eq_ok_iff.mp h
  obtain ⟨v, bs'', hv, h⟩ := andThen_eq_ok_iff.mp h
  cases h
  exact ⟨ho.insert (hread hv) hkey, insert_ne_nil key v o⟩

theorem numeral_of_wholeNumber {s text : String} (h : wholeNumber s = .ok text) :
    Numeral text := by
  have hfault (m : Mistake) (unread : Nat) {r : Except Fault String}
      (hr : r = if unread = 0 then .error (.inNumber m (.after (Utf8.encode s)))
        else .error (.inNumber .invalidNumber
          (.after ((Utf8.encode s).take ((Utf8.encode s).length - (unread - 1)))))) :
      r ≠ .ok text := by
    subst hr
    split <;> simp
  unfold wholeNumber at h
  dsimp only at h
  split at h
  · exact absurd h (hfault _ _ rfl)
  · split at h
    · split at h
      · next hnumber =>
        cases h
        exact numeral_of_number hnumber
      · exact absurd h (hfault _ _ rfl)
      · exact absurd h (hfault _ _ rfl)
      · exact absurd h (hfault _ _ rfl)
      · cases h
    · exact absurd h (hfault _ _ rfl)

/-- A scalar that is refused is read first, and refused whether or not it could be read. -/
theorem andThen_faultAfter_ne_ok {α β : Type} {r : Read α} {f : α → Mistake} {x : β × List UInt8} :
    (r.andThen fun a rest => (faultAfter (f a) rest : Read β)) ≠ .ok x := by
  intro h
  obtain ⟨a, bs', -, h⟩ := andThen_eq_ok_iff.mp h
  cases h

theorem refuse_ne_ok {α : Type} {limit : Nat} {expected : String} {x : α × List UInt8} :
    (refuse limit expected bs : Read α) ≠ .ok x := by
  unfold refuse
  dsimp only
  split
  · exact nofun
  · split_ifs
    any_goals exact andThen_faultAfter_ne_ok
    all_goals exact nofun

/-- The number that an object stands for is stored as one that stands for itself. -/
theorem numeral_of_numberObject {limit : Nat} {text : String}
    (h : numberObject limit bs = .ok (text, rest)) : Numeral text := by
  obtain ⟨_, bs', -, h⟩ := andThen_eq_ok_iff.mp h
  split at h
  · obtain ⟨s, bs'', -, h⟩ := andThen_eq_ok_iff.mp h
    split at h
    · cases h
    · next number hnumber =>
      split at h <;> cases h
      exact numeral_of_wholeNumber hnumber
  · exact absurd h refuse_ne_ok

theorem legible_object (hread : ReadsLegible depth read) (limit : Nat) :
    ReadsLegible (depth + 1) (object true limit read) := by
  intro bs v rest h
  obtain ⟨key?, bs₁, -, h⟩ := andThen_eq_ok_iff.mp h
  cases key? with
  | none =>
    cases h
    exact legible_obj_iff.mpr legibleObject_nil
  | some key =>
    simp only at h
    split at h
    · obtain ⟨text, bs₂, hnumber, h⟩ := andThen_eq_ok_iff.mp h
      cases h
      exact .num (numeral_of_numberObject hnumber)
    · next hkey =>
      have hkey : key ≠ numberKey := by simpa using hkey
      obtain ⟨o, bs₂, ho, h⟩ := andThen_eq_ok_iff.mp h
      obtain ⟨p, bs₃, hp, h⟩ := andThen_eq_ok_iff.mp h
      cases h
      have hfirst := legible_member hread legibleObject_nil (.inl hkey) ho
      have hall : LegibleObject depth p ∧ p ≠ [] :=
        members_preserves (P := fun o => LegibleObject depth o ∧ o ≠ [])
          (fun ho h => legible_member hread ho.1 (.inr ho.2) h) hfirst hp
      exact legible_obj_iff.mpr hall.1

theorem legible_valueWith {inner : Option (List UInt8 → Read Json)}
    (hinner : ∀ read, inner = some read → ∃ d, depth = d + 1 ∧ ReadsLegible d read)
    (limit : Nat) : ReadsLegible depth (valueWith true limit inner) := by
  intro bs v rest h
  unfold valueWith at h
  split at h
  · cases h
  · split_ifs at h
    · rw [eq_of_word h]
      exact .null
    · rw [eq_of_word h]
      exact .bool true
    · rw [eq_of_word h]
      exact .bool false
    · obtain ⟨text, bs', hnumber, h⟩ := andThen_eq_ok_iff.mp h
      cases h
      exact .num (numeral_of_number hnumber)
    · obtain ⟨s, bs', -, h⟩ := andThen_eq_ok_iff.mp h
      cases h
      exact .str s
    · cases inner with
      | none => cases h
      | some read =>
        obtain ⟨d, rfl, hread⟩ := hinner read rfl
        exact legible_array hread limit h
    · cases inner with
      | none => cases h
      | some read =>
        obtain ⟨d, rfl, hread⟩ := hinner read rfl
        exact legible_object hread limit h
    · cases h

theorem legible_value (limit depth : Nat) : ReadsLegible depth (value true limit depth) := by
  induction depth with
  | zero => exact legible_valueWith (by simp) limit
  | succ depth ih =>
    refine legible_valueWith ?_ limit
    rintro read ⟨⟩
    exact ⟨depth, rfl, ih⟩

end Reader

theorem legible_of_parse {bs : List UInt8} (h : parse bs = .ok v) : Legible maxDepth v := by
  obtain ⟨rest, hread⟩ := exists_of_whole h
  exact legible_value _ _ hread

theorem distinctKeys_of_parse {bs : List UInt8} (h : parse bs = .ok v) : v.distinctKeys :=
  distinctKeys_of_legible (legible_of_parse h)

end Json

namespace Notebook

variable {bs : List UInt8} {nb : Notebook}

theorem legible_of_ofOctets? (h : ofOctets? bs = .ok nb) :
    Json.Legible Json.Reader.maxDepth nb.toJson :=
  Json.legible_of_parse (parse_of_ofOctets? h)

/-- No object of a notebook that is read repeats a key. -/
theorem distinctKeys_of_ofOctets? (h : ofOctets? bs = .ok nb) : nb.DistinctKeys :=
  Json.distinctKeys_of_parse (parse_of_ofOctets? h)

end Notebook

end NotebookCleaning
