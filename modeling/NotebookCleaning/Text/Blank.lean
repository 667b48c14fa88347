/-!
# Blank text

The blank characters are those with the Unicode property `White_Space`. A text is blank when it
holds no other character; `trim` drops the blank characters at both ends of a text.
-/

namespace NotebookCleaning.Blank

/-- The code points with the property `White_Space`, as inclusive ranges. -/
def ranges : List (Nat × Nat) :=
  [(0x0009, 0x000D), (0x0020, 0x0020), (0x0085, 0x0085), (0x00A0, 0x00A0), (0x1680, 0x1680),
    (0x2000, 0x200A), (0x2028, 0x2029), (0x202F, 0x202F), (0x205F, 0x205F), (0x3000, 0x3000)]

def isBlankChar (c : Char) : Bool := ranges.any fun r => r.1 ≤ c.toNat && c.toNat ≤ r.2

def isBlank (s : String) : Bool := s.toList.all isBlankChar

def dropEnd (cs : List Char) : List Char := (cs.reverse.dropWhile isBlankChar).reverse

def trimEnd (s : String) : String := String.ofList (dropEnd s.toList)

def trim (s : String) : String := String.ofList (dropEnd (s.toList.dropWhile isBlankChar))

theorem isBlank_append (s t : String) : isBlank (s ++ t) = (isBlank s && isBlank t) := by
  simp [isBlank]

end NotebookCleaning.Blank
