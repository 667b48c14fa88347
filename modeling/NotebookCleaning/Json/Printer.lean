import NotebookCleaning.Json.Basic

/-!
# Writing JSON

`pretty step` puts every item and every entry on a line of its own, indented by `step` more spaces
than what holds it; `compact` puts no white space. Both escape a quote, a backslash and the control
characters, and write every other character as it is.
-/

namespace NotebookCleaning.Json.Printer

def hexDigit (n : Nat) : Char := if n < 10 then Char.ofNat (48 + n) else Char.ofNat (87 + n)

def escape (c : Char) : List Char :=
  if c = '"' then ['\\', '"']
  else if c = '\\' then ['\\', '\\']
  else if c.toNat < 32 then
    match c.toNat with
    | 8 => ['\\', 'b']
    | 9 => ['\\', 't']
    | 10 => ['\\', 'n']
    | 12 => ['\\', 'f']
    | 13 => ['\\', 'r']
    | n => ['\\', 'u', '0', '0', hexDigit (n / 16), hexDigit (n % 16)]
  else [c]

def quoted (s : String) : List Char := '"' :: s.toList.flatMap escape ++ ['"']

def newline (width : Nat) : List Char := '\n' :: List.replicate width ' '

/-- Joins non-empty lists of parts, with `sep` before each part and a comma between two. -/
def separated (sep : List Char) : List (List Char) → List Char
  | [] => []
  | [p] => sep ++ p
  | p :: ps => sep ++ p ++ ',' :: separated sep ps

/-- A bracketed list of parts, each on a line that is `inside` wide; `outside` is the indentation of
the closing bracket. -/
def bracketed (opening closing : Char) (inside outside : Nat) (parts : List (List Char)) :
    List Char :=
  match parts with
  | [] => [opening, closing]
  | parts => opening :: separated (newline inside) parts ++ newline outside ++ [closing]

mutual

/-- The text of a value that stands in a line indented by `width`. -/
def pretty (step width : Nat) : Json → List Char
  | .null => "null".toList
  | .bool true => "true".toList
  | .bool false => "false".toList
  | .num text => text.toList
  | .str s => quoted s
  | .arr items => bracketed '[' ']' (width + step) width (prettyItems step (width + step) items)
  | .obj entries =>
    bracketed '\x7b' '\x7d' (width + step) width (prettyEntries step (width + step) entries)

def prettyItems (step width : Nat) : List Json → List (List Char)
  | [] => []
  | v :: vs => pretty step width v :: prettyItems step width vs

def prettyEntries (step width : Nat) : List (String × Json) → List (List Char)
  | [] => []
  | (k, v) :: es =>
    (quoted k ++ [':', ' '] ++ pretty step width v) :: prettyEntries step width es

end

mutual

def compact : Json → List Char
  | .null => "null".toList
  | .bool true => "true".toList
  | .bool false => "false".toList
  | .num text => text.toList
  | .str s => quoted s
  | .arr items => '[' :: [','].intercalate (compactItems items) ++ [']']
  | .obj entries => '\x7b' :: [','].intercalate (compactEntries entries) ++ ['\x7d']

def compactItems : List Json → List (List Char)
  | [] => []
  | v :: vs => compact v :: compactItems vs

def compactEntries : List (String × Json) → List (List Char)
  | [] => []
  | (k, v) :: es => (quoted k ++ ':' :: compact v) :: compactEntries es

end

end NotebookCleaning.Json.Printer

namespace NotebookCleaning

/-- The text of a value on several lines, without a last line feed. -/
def Json.render (step : Nat) (v : Json) : String := String.ofList (Json.Printer.pretty step 0 v)

def Json.renderCompact (v : Json) : String := String.ofList (Json.Printer.compact v)

end NotebookCleaning
