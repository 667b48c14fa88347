/-!
# Positions in a text

A position is a line, counted from one, and a column: the number of octets after the last line feed.
-/

namespace NotebookCleaning.Json

structure Position where
  line : Nat
  column : Nat
  deriving DecidableEq

namespace Position

/-- The position that is reached when `bs` has been read. -/
def after (bs : List UInt8) : Position :=
  ⟨1 + bs.count 10, (bs.reverse.takeWhile (· != 10)).length⟩

def back (p : Position) (n : Nat) : Position := ⟨p.line, p.column - n⟩

def text (p : Position) : String := s!" at line {p.line} column {p.column}"

end Position

end NotebookCleaning.Json
