import NotebookCleaning.Text.Unprintable

/-!
# Quoted text

A text between double quotes in which every character can be seen: a quote and a backslash are
escaped, common controls have a letter, and every other character that is not shown is written by
its code point.
-/

namespace NotebookCleaning.Quoted

def hexDigits (n : Nat) : List Char := Nat.toDigits 16 n

def escape (c : Char) : List Char :=
  match c with
  | '"' => ['\\', '"']
  | '\\' => ['\\', '\\']
  | '\n' => ['\\', 'n']
  | '\t' => ['\\', 't']
  | '\r' => ['\\', 'r']
  | '\x00' => ['\\', '0']
  | c =>
    if Unprintable.isUnprintable c then ['\\', 'u', '\x7b'] ++ hexDigits c.toNat ++ ['\x7d']
    else [c]

def quote (s : String) : String := String.ofList ('"' :: s.toList.flatMap escape ++ ['"'])

/-- A list of quoted texts in square brackets. -/
def quoteList (ss : List String) : String := "[" ++ ", ".intercalate (ss.map quote) ++ "]"

end NotebookCleaning.Quoted
