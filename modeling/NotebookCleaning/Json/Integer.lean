import NotebookCleaning.Json.Basic

/-!
# Integers among the numbers

A number is its text, and the text of an integer is all digits, with a minus before them if it is
negative. `isInteger` accepts the integers that 64 bits hold; a negative zero is none of them.
-/

namespace NotebookCleaning.Json.Integer

def maxNatural : Nat := 18446744073709551615

/-- The largest number of which 64 bits hold the negative. -/
def maxNegated : Nat := 9223372036854775808

def ofDigits? (ds : List Char) : Option Nat :=
  if !ds.isEmpty && ds.all Char.isDigit then
    some (ds.foldl (fun n d => 10 * n + (d.toNat - '0'.toNat)) 0)
  else none

def natural? (text : String) : Option Nat := (ofDigits? text.toList).filter fun n => n ≤ maxNatural

def isInteger (text : String) : Bool :=
  match text.toList with
  | '-' :: ds =>
    match ofDigits? ds with
    | some n => 0 < n && n ≤ maxNegated
    | none => false
  | _ => (natural? text).isSome

end NotebookCleaning.Json.Integer

namespace NotebookCleaning.Json

/-- What a value is called where another one was wanted. -/
def describe : Json → String
  | .null => "null"
  | .bool true => "boolean `true`"
  | .bool false => "boolean `false`"
  | .num text => if Integer.isInteger text then "integer `" ++ text ++ "`" else "number"
  | .str s => "string \"" ++ s ++ "\""
  | .arr _ => "sequence"
  | .obj _ => "map"

end NotebookCleaning.Json
