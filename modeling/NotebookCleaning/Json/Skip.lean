import NotebookCleaning.Json.Reader

/-!
# Passing over values

A value that nobody wants is passed over without being built. Its brackets are kept on a stack, so
no depth is too great, and its mistakes are named as they come: escapes are not put together into
characters, a number that ends too early is an invalid number, and after a comma the next element is
expected at once.
-/

namespace NotebookCleaning.Json.Skip

open Reader

def escape (bs : List UInt8) : Read Unit :=
  match bs with
  | [] => faultAfter .endOfString []
  | 117 :: rest => (hexUnit rest).andThen fun _ rest => .ok ((), rest)
  | b :: rest =>
    if [34, 92, 47, 98, 102, 110, 114, 116].contains b then .ok ((), rest)
    else faultAfter .invalidEscape rest

def string : Nat → List UInt8 → Read Unit
  | 0, _ => faultAfter .endOfString []
  | _ + 1, [] => faultAfter .endOfString []
  | limit + 1, b :: rest =>
    if b = 34 then .ok ((), rest)
    else if b = 92 then (escape rest).andThen fun _ rest => string limit rest
    else if b < 32 then faultAfter .controlCharacter (b :: rest)
    else string limit rest

def number (bs : List UInt8) : Read Unit :=
  match Reader.number bs with
  | .ok (_, rest) => .ok ((), rest)
  | .error (.after _ unread back) => .error (.after .invalidNumber unread back)
  | .error (.ahead _ unread) => .error (.ahead .invalidNumber unread)
  | .error fault => .error fault

inductive Bracket where
  | list
  | object

/-- What is expected next: a value, or something after a bracket that has opened (`first`) or after
a value. -/
inductive Phase where
  | value
  | inside (first : Bool)

def key (limit : Nat) (bs : List UInt8) : Read Unit :=
  match skipSpace bs with
  | [] => faultAt .endOfObject []
  | b :: rest =>
    if b = 34 then (string limit rest).andThen fun _ rest => colon rest
    else faultAt .keyNotString (b :: rest)

def enter (limit : Nat) (bracket : Bracket) (bs : List UInt8) : Read Unit :=
  match bracket with
  | .list => .ok ((), bs)
  | .object => key limit bs

/-- One value and the rest of the brackets around it, the innermost first. -/
def values (limit : Nat) : Nat → Phase → List Bracket → List UInt8 → Read Unit
  | 0, _, _, _ => faultAt .endOfValue []
  | n + 1, .value, brackets, bs =>
    let scalar (r : Read Unit) : Read Unit :=
      r.andThen fun _ rest => values limit n (.inside false) brackets rest
    match skipSpace bs with
    | [] => faultAt .endOfValue []
    | b :: rest =>
      if b = 110 then scalar (word [117, 108, 108] () rest)
      else if b = 116 then scalar (word [114, 117, 101] () rest)
      else if b = 102 then scalar (word [97, 108, 115, 101] () rest)
      else if b = 45 || isDigit b then scalar (number (b :: rest))
      else if b = 34 then scalar (string limit rest)
      else if b = 91 then values limit n (.inside true) (.list :: brackets) rest
      else if b = 123 then values limit n (.inside true) (.object :: brackets) rest
      else faultAt .expectedValue (b :: rest)
  | _ + 1, .inside _, [], bs => .ok ((), bs)
  | n + 1, .inside first, bracket :: brackets, bs =>
    let next (bs : List UInt8) : Read Unit :=
      (enter limit bracket bs).andThen fun _ rest =>
      values limit n .value (bracket :: brackets) rest
    match bracket, skipSpace bs with
    | .list, [] => faultAt .endOfList []
    | .object, [] => faultAt .endOfObject []
    | .list, 93 :: rest => values limit n (.inside false) brackets rest
    | .object, 125 :: rest => values limit n (.inside false) brackets rest
    | bracket, b :: rest =>
      if first then next (b :: rest)
      else if b = 44 then next rest
      else
        match bracket with
        | .list => faultAt .expectedCommaOrBracket (b :: rest)
        | .object => faultAt .expectedCommaOrBrace (b :: rest)

end NotebookCleaning.Json.Skip

namespace NotebookCleaning.Json

/-- Passes over one value. Each octet takes at most two steps. -/
def Skip.value (limit : Nat) (bs : List UInt8) : Read Unit :=
  Skip.values limit (2 * limit) .value [] bs

end NotebookCleaning.Json
