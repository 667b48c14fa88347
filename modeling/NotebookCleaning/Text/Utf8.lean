/-!
# Text as octets

`encode` writes a text in UTF-8 and `decode?` reads it back, refusing every list of octets that is
not the encoding of a text. `pieces` cuts any list of octets into characters and maximal invalid
parts: a part ends before the first octet that cannot continue a well-formed character. The lossy
reading puts U+FFFD in the place of each such part.
-/

namespace NotebookCleaning.Utf8

def encode (s : String) : List UInt8 := s.toUTF8.data.toList

def decode? (bs : List UInt8) : Option String := String.fromUTF8? ⟨bs.toArray⟩

theorem decode?_encode (s : String) : decode? (encode s) = some s := by
  unfold decode? encode String.fromUTF8?
  rw [Array.toArray_toList]
  exact dif_pos s.isValidUTF8

/-- A character whose first octets have been read. The next octet must lie between `low` and
`high`; `bits` holds what the octets so far say, and `missing` counts those still to come. -/
structure Partial where
  bits : Nat
  missing : Nat
  low : UInt8
  high : UInt8

/-- What a first octet begins: a character of its own, a longer one, or nothing. The bounds on the
second octet shut out overlong forms, surrogates and values above U+10FFFF. -/
def start (b : UInt8) : Option Char ⊕ Partial :=
  if b < 0x80 then .inl (some (Char.ofNat b.toNat))
  else if b < 0xC2 then .inl none
  else if b < 0xE0 then .inr ⟨b.toNat - 0xC0, 1, 0x80, 0xBF⟩
  else if b = 0xE0 then .inr ⟨0, 2, 0xA0, 0xBF⟩
  else if b = 0xED then .inr ⟨0xD, 2, 0x80, 0x9F⟩
  else if b < 0xF0 then .inr ⟨b.toNat - 0xE0, 2, 0x80, 0xBF⟩
  else if b = 0xF0 then .inr ⟨0, 3, 0x90, 0xBF⟩
  else if b < 0xF4 then .inr ⟨b.toNat - 0xF0, 3, 0x80, 0xBF⟩
  else if b = 0xF4 then .inr ⟨4, 3, 0x80, 0x8F⟩
  else .inl none

def piecesFrom : Option Partial → List UInt8 → List (Option Char)
  | none, [] => []
  | some _, [] => [none]
  | pending, b :: bs =>
    let fresh :=
      match start b with
      | .inl piece => piece :: piecesFrom none bs
      | .inr p => piecesFrom (some p) bs
    match pending with
    | none => fresh
    | some p =>
      if p.low ≤ b ∧ b ≤ p.high then
        let bits := 64 * p.bits + (b.toNat - 0x80)
        if p.missing ≤ 1 then some (Char.ofNat bits) :: piecesFrom none bs
        else piecesFrom (some ⟨bits, p.missing - 1, 0x80, 0xBF⟩) bs
      else none :: fresh

def pieces (bs : List UInt8) : List (Option Char) := piecesFrom none bs

def decodeLossy (bs : List UInt8) : String :=
  String.ofList ((pieces bs).map (·.getD '\uFFFD'))

/-- The length of the longest beginning that is the encoding of a text. -/
def validLength (bs : List UInt8) : Nat :=
  (encode (String.ofList (((pieces bs).takeWhile Option.isSome).filterMap id))).length

end NotebookCleaning.Utf8
