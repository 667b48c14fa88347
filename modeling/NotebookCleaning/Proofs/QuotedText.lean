import Mathlib.Tactic.IntervalCases
import NotebookCleaning.Proofs.Octets
import NotebookCleaning.Proofs.Reading

/-!
# Strings as they are written

The printer escapes a quote, a backslash and the control characters; every other character stands
for itself. The reader undoes this character by character (`exists_stringOctets_escape`), and so for
a whole string between its quotes (`string_quoted`).
-/

namespace NotebookCleaning.Json

namespace Reader

open Read Utf8

variable {c : Char} {rest : List UInt8}

theorem stringOctets_plain {bs : List UInt8} (h : ∀ b ∈ bs, Plain b) (n : Nat) (acc : List UInt8) :
    stringOctets (n + bs.length) acc (bs ++ rest) = stringOctets n (bs.reverse ++ acc) rest := by
  induction bs generalizing acc with
  | nil => rfl
  | cons b tail ih =>
    obtain ⟨⟨hquote, hbackslash, hcontrol⟩, htail⟩ := List.forall_mem_cons.mp h
    rw [List.length_cons, ← Nat.add_assoc, List.cons_append, stringOctets, if_neg hquote,
      if_neg hbackslash, if_neg hcontrol, ih htail, List.reverse_cons, List.append_assoc]
    rfl

/-- An escape of the printer is a backslash with what the reader takes for the character. -/
theorem exists_escape_of_lt (h : c.toNat < 32) : ∃ e, octets (Printer.escape c) = 92 :: e ∧
    ∀ rest, escape (e ++ rest) = .ok (String.utf8EncodeChar c, rest) := by
  have hall (n : Nat) (hn : n < 32) : ∃ e, octets (Printer.escape (Char.ofNat n)) = 92 :: e ∧
      ∀ rest, escape (e ++ rest) = .ok (String.utf8EncodeChar (Char.ofNat n), rest) := by
    interval_cases n <;> exact ⟨_, rfl, fun _ => rfl⟩
  rw [← Char.ofNat_toNat c]
  exact hall c.toNat h

theorem escape_eq_self_or_exists (c : Char) :
    Printer.escape c = [c] ∧ (∀ b ∈ String.utf8EncodeChar c, Plain b) ∨
      ∃ e, octets (Printer.escape c) = 92 :: e ∧
        ∀ rest, escape (e ++ rest) = .ok (String.utf8EncodeChar c, rest) := by
  by_cases hcontrol : c.toNat < 32
  · exact .inr (exists_escape_of_lt hcontrol)
  by_cases hquote : c = '"'
  · subst hquote
    exact .inr ⟨_, rfl, fun _ => rfl⟩
  by_cases hbackslash : c = '\\'
  · subst hbackslash
    exact .inr ⟨_, rfl, fun _ => rfl⟩
  refine .inl ⟨?_, fun b hb => plain_of_mem_utf8EncodeChar hquote hbackslash hcontrol hb⟩
  rw [Printer.escape, if_neg hquote, if_neg hbackslash, if_neg hcontrol]

/-- The reader takes one character out of a string in no more rounds than it has octets. -/
theorem exists_stringOctets_escape (c : Char) : ∃ used ≤ (octets (Printer.escape c)).length,
    ∀ n acc rest, stringOctets (n + used) acc (octets (Printer.escape c) ++ rest) =
      stringOctets n ((String.utf8EncodeChar c).reverse ++ acc) rest := by
  rcases escape_eq_self_or_exists c with ⟨hself, hplain⟩ | ⟨e, hoctets, hread⟩
  · have hoctets : octets (Printer.escape c) = String.utf8EncodeChar c := by
      rw [hself, octets_cons, octets_nil, List.append_nil]
    rw [hoctets]
    exact ⟨_, Nat.le_refl _, fun n acc rest => stringOctets_plain hplain n acc⟩
  · rw [hoctets]
    refine ⟨1, by simp, fun n acc rest => ?_⟩
    rw [List.cons_append, stringOctets, if_neg (by decide), if_pos rfl, hread, andThen_ok]

theorem stringOctets_flatMap_escape {cs : List Char} {limit : Nat}
    (hlimit : (octets (cs.flatMap Printer.escape)).length < limit) (acc : List UInt8) :
    stringOctets limit acc (octets (cs.flatMap Printer.escape) ++ 34 :: rest) =
      .ok (acc.reverse ++ octets cs, rest) := by
  induction cs generalizing limit acc with
  | nil =>
    obtain ⟨n, rfl⟩ := Nat.exists_eq_succ_of_ne_zero (Nat.ne_of_gt hlimit)
    simp [stringOctets]
  | cons c cs ih =>
    obtain ⟨used, hused, hread⟩ := exists_stringOctets_escape c
    rw [List.flatMap_cons, octets_append, List.length_append] at hlimit
    obtain ⟨n, rfl⟩ : ∃ n, limit = n + used := ⟨limit - used, by omega⟩
    rw [List.flatMap_cons, octets_append, List.append_assoc, hread, ih (by omega), octets_cons]
    simp

/-- A string is read back as it is. -/
theorem string_quoted (s : String) {limit : Nat}
    (hlimit : (octets (s.toList.flatMap Printer.escape)).length < limit) :
    string limit (octets (s.toList.flatMap Printer.escape) ++ 34 :: rest) = .ok (s, rest) := by
  rw [string, stringOctets_flatMap_escape hlimit, andThen_ok, List.reverse_nil, List.nil_append,
    decode?_octets]

theorem octets_quoted (s : String) :
    octets (Printer.quoted s) = 34 :: (octets (s.toList.flatMap Printer.escape) ++ [34]) := by
  rw [Printer.quoted, octets_append, octets_cons]
  rfl

end Reader

end NotebookCleaning.Json
