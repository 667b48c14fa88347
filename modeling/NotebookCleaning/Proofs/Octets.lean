import NotebookCleaning.Json.Printer
import NotebookCleaning.Text.Utf8

/-!
# The octets of a text

A text is encoded character by character (`encode_eq_octets`), so what is written part by part can
be read part by part. A character that a string shows as it is has no octet that means something
else inside a string (`plain_of_mem_utf8EncodeChar`).
-/

namespace NotebookCleaning.Utf8

variable {cs ds : List Char} {c : Char}

def octets (cs : List Char) : List UInt8 := cs.flatMap String.utf8EncodeChar

@[simp] theorem octets_nil : octets [] = [] := rfl

theorem octets_cons (c : Char) (cs : List Char) :
    octets (c :: cs) = String.utf8EncodeChar c ++ octets cs := rfl

@[simp]
theorem octets_append (cs ds : List Char) : octets (cs ++ ds) = octets cs ++ octets ds :=
  List.flatMap_append

theorem encode_ofList (cs : List Char) : encode (String.ofList cs) = octets cs := by
  rw [encode, String.toUTF8_eq_toByteArray, String.toByteArray_ofList]
  exact List.toList_data_toByteArray

theorem encode_eq_octets (s : String) : encode s = octets s.toList := by
  rw [← encode_ofList, String.ofList_toList]

theorem decode?_octets (s : String) : decode? (octets s.toList) = some s := by
  rw [← encode_eq_octets, decode?_encode]

theorem decode?_eq_some_iff {bs : List UInt8} {s : String} :
    decode? bs = some s ↔ bs = encode s := by
  constructor
  · intro h
    unfold decode? String.fromUTF8? at h
    split at h <;> cases h
    rfl
  · rintro rfl
    exact decode?_encode s

theorem utf8EncodeChar_of_le (h : c.toNat ≤ 127) :
    String.utf8EncodeChar c = [UInt8.ofNat c.toNat] := if_pos h

/-- A character outside ASCII has no octet in it. -/
theorem le_of_mem_utf8EncodeChar (h : 127 < c.toNat) {b : UInt8}
    (hb : b ∈ String.utf8EncodeChar c) : 128 ≤ b := by
  have hge (n m : Nat) (hm : 128 ≤ m) (hlt : n + m < 256) : 128 ≤ UInt8.ofNat (n + m) := by
    rw [UInt8.le_iff_toNat_le, UInt8.toNat_ofNat', Nat.mod_eq_of_lt hlt]
    exact Nat.le_trans hm (Nat.le_add_left m n)
  have hc : ¬c.val.toNat ≤ 127 := Nat.not_le.mpr h
  unfold String.utf8EncodeChar at hb
  simp only [if_neg hc] at hb
  split at hb
  · simp only [List.mem_cons, List.not_mem_nil, or_false] at hb
    rcases hb with rfl | rfl <;> exact hge _ _ (by omega) (by omega)
  · split at hb
    · simp only [List.mem_cons, List.not_mem_nil, or_false] at hb
      rcases hb with rfl | rfl | rfl <;> exact hge _ _ (by omega) (by omega)
    · simp only [List.mem_cons, List.not_mem_nil, or_false] at hb
      rcases hb with rfl | rfl | rfl | rfl <;> exact hge _ _ (by omega) (by omega)

/-- An octet that stands for itself in a string: no quote, no backslash, no control character. -/
def Plain (b : UInt8) : Prop := b ≠ 34 ∧ b ≠ 92 ∧ ¬b < 32

theorem plain_of_mem_utf8EncodeChar (hquote : c ≠ '"') (hbackslash : c ≠ '\\')
    (hcontrol : ¬c.toNat < 32) {b : UInt8} (hb : b ∈ String.utf8EncodeChar c) : Plain b := by
  by_cases h : c.toNat ≤ 127
  · rw [utf8EncodeChar_of_le h, List.mem_singleton] at hb
    have hb' : b.toNat = c.toNat := by
      rw [hb, UInt8.toNat_ofNat', Nat.mod_eq_of_lt (by omega)]
    have hne (d : Char) (hd : c ≠ d) : c.toNat ≠ d.toNat := fun heq => hd (Char.toNat_inj.mp heq)
    refine ⟨?_, ?_, ?_⟩
    · rintro rfl
      exact hne '"' hquote hb'.symm
    · rintro rfl
      exact hne '\\' hbackslash hb'.symm
    · rw [UInt8.lt_iff_toNat_lt, hb']
      exact hcontrol
  · have hge := UInt8.le_iff_toNat_le.mp (le_of_mem_utf8EncodeChar (Nat.not_le.mp h) hb)
    have hge : 128 ≤ b.toNat := hge
    refine ⟨?_, ?_, ?_⟩
    · rintro rfl
      exact absurd hge (by decide)
    · rintro rfl
      exact absurd hge (by decide)
    · rw [UInt8.lt_iff_toNat_lt]
      exact Nat.not_lt.mpr (Nat.le_trans (by decide) hge)

end NotebookCleaning.Utf8
