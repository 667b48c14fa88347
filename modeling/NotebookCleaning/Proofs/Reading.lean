import NotebookCleaning.Notebook.Text

/-!
# Readers that succeed

A reader that succeeds is taken apart into its steps by `andThen_eq_ok_iff`. What each item of a
loop keeps, the whole loop keeps (`elements_preserves`, `members_preserves`). A notebook that is
read is the value that its text holds (`parse_of_ofOctets?`).
-/

namespace NotebookCleaning

namespace Json

namespace Read

variable {α β : Type}

theorem andThen_eq_ok_iff {r : Read α} {f : α → List UInt8 → Read β} {x : β × List UInt8} :
    r.andThen f = .ok x ↔ ∃ a rest, r = .ok (a, rest) ∧ f a rest = .ok x := by
  constructor
  · intro h
    cases r with
    | error fault => cases h
    | ok read => exact ⟨read.1, read.2, rfl, h⟩
  · rintro ⟨a, rest, rfl, h⟩
    exact h

end Read

namespace Reader

open Read

variable {α : Type} {bs rest : List UInt8}

theorem elements_preserves {P : α → Prop} {item : α → List UInt8 → Read α}
    (hitem : ∀ {acc bs a rest}, P acc → item acc bs = .ok (a, rest) → P a) {n : Nat} {first : Bool}
    {acc a : α} (hacc : P acc) (h : elements item n first acc bs = .ok (a, rest)) : P a := by
  induction n generalizing first acc bs with
  | zero => cases h
  | succ n ih =>
    rw [elements, andThen_eq_ok_iff] at h
    obtain ⟨more, bs', -, h⟩ := h
    cases more with
    | false =>
      cases h
      exact hacc
    | true =>
      obtain ⟨acc', bs'', hread, h⟩ := andThen_eq_ok_iff.mp h
      exact ih (hitem hacc hread) h

theorem members_preserves {P : α → Prop} {limit : Nat} {item : α → String → List UInt8 → Read α}
    (hitem : ∀ {acc key bs a rest}, P acc → item acc key bs = .ok (a, rest) → P a) {n : Nat}
    {first : Bool} {acc a : α} (hacc : P acc)
    (h : members limit item n first acc bs = .ok (a, rest)) : P a := by
  induction n generalizing first acc bs with
  | zero => cases h
  | succ n ih =>
    rw [members, andThen_eq_ok_iff] at h
    obtain ⟨key?, bs', -, h⟩ := h
    cases key? with
    | none =>
      cases h
      exact hacc
    | some key =>
      obtain ⟨acc', bs'', hread, h⟩ := andThen_eq_ok_iff.mp h
      exact ih (hitem hacc hread) h

theorem exists_of_whole {read : Nat → List UInt8 → Read α} {a : α} (h : whole read bs = .ok a) :
    ∃ rest, read (bs.length + 1) bs = .ok (a, rest) := by
  unfold whole at h
  split at h
  · cases h
  · next a' rest' hr =>
    cases h
    obtain ⟨a'', rest, hread, hend⟩ := andThen_eq_ok_iff.mp hr
    unfold endOfText at hend
    split at hend
    · cases hend
      exact ⟨rest, hread⟩
    · cases hend

end Reader

end Json

namespace Notebook

theorem toJson_of_ofJson? {v : Json} {nb : Notebook} (h : ofJson? v = .ok nb) : nb.toJson = v := by
  unfold ofJson? at h
  split at h
  · split at h <;> cases h
    rfl
  · cases h

theorem parse_of_ofOctets? {bs : List UInt8} {nb : Notebook} (h : ofOctets? bs = .ok nb) :
    Json.parse bs = .ok nb.toJson := by
  unfold ofOctets? at h
  split at h
  · cases h
  · next v hparse =>
    cases hv : ofJson? v with
    | error e =>
      rw [hv] at h
      cases h
    | ok nb' =>
      rw [hv] at h
      cases h
      rw [hparse, toJson_of_ofJson? hv]

end Notebook

end NotebookCleaning
