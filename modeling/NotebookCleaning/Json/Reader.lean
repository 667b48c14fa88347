import NotebookCleaning.Json.Error
import NotebookCleaning.Json.Integer
import NotebookCleaning.Text.Utf8

/-!
# Reading JSON

The reader works on octets and hands on the octets it has left. A fault names the mistake and says
how many octets were unread where it was found, from which `parse` computes the position. The octet
at fault has either been read already (`Fault.after`) or only been looked at (`Fault.ahead`).

`value spelled limit depth` reads one value with at most `depth` brackets open at a time. The number
`limit` bounds the length of each loop; any number above the length of the input is the same. With
`spelled`, an object whose first key is `numberKey` stands for the number that its value spells.
-/

namespace NotebookCleaning.Json

inductive Fault where
  /-- A mistake that ends where `unread` octets are left. The column is moved back by `back`. -/
  | after (mistake : Mistake) (unread back : Nat)
  /-- A mistake in the first of the `unread` octets that are left, or at the end if none is. -/
  | ahead (mistake : Mistake) (unread : Nat)
  | inNumber (mistake : Mistake) (position : Position)

/-- What has been read, with the octets that are left. -/
abbrev Read (α : Type) := Except Fault (α × List UInt8)

namespace Read

variable {α β : Type}

@[inline]
def andThen (r : Read α) (f : α → List UInt8 → Read β) : Read β :=
  match r with
  | .ok (a, rest) => f a rest
  | .error fault => .error fault

@[simp]
theorem andThen_ok (a : α) (rest : List UInt8) (f : α → List UInt8 → Read β) :
    andThen (.ok (a, rest)) f = f a rest := rfl

@[simp]
theorem andThen_error (fault : Fault) (f : α → List UInt8 → Read β) :
    andThen (.error fault) f = .error fault := rfl

end Read

namespace Reader

variable {α : Type}

def faultAfter (m : Mistake) (rest : List UInt8) : Except Fault α := .error (.after m rest.length 0)

/-- The fault of the first octet of `bs`, or of the end. -/
def faultAt (m : Mistake) (bs : List UInt8) : Except Fault α := .error (.ahead m bs.length)

def isSpace (b : UInt8) : Bool := b == 32 || b == 10 || b == 9 || b == 13

def skipSpace (bs : List UInt8) : List UInt8 := bs.dropWhile isSpace

def isDigit (b : UInt8) : Bool := 48 ≤ b && b ≤ 57

/-! ## Words -/

def word (letters : List UInt8) (v : α) (bs : List UInt8) : Read α :=
  match letters, bs with
  | [], bs => .ok (v, bs)
  | _ :: _, [] => faultAfter .endOfValue []
  | l :: ls, b :: rest => if b = l then word ls v rest else faultAfter .expectedWord rest

/-! ## Numbers -/

/-- Reads one digit or more. The first octet is read before it is judged. -/
def digits (bs : List UInt8) : Read (List UInt8) :=
  match bs with
  | [] => faultAfter .endOfValue []
  | b :: rest =>
    if isDigit b then .ok (b :: rest.takeWhile isDigit, rest.dropWhile isDigit)
    else faultAfter .invalidNumber rest

def integerPart (bs : List UInt8) : Read (List UInt8) :=
  match bs with
  | 48 :: rest =>
    if (rest.head?.map isDigit).getD false then faultAt .invalidNumber rest else .ok ([48], rest)
  | bs => digits bs

def fractionPart (bs : List UInt8) : Read (List UInt8) :=
  match bs with
  | 46 :: rest =>
    match rest.takeWhile isDigit with
    | [] => faultAt (if rest.isEmpty then .endOfValue else .invalidNumber) rest
    | ds => .ok (46 :: ds, rest.dropWhile isDigit)
  | bs => .ok ([], bs)

def exponentSign (bs : List UInt8) : UInt8 × List UInt8 :=
  match bs with
  | 45 :: rest => (45, rest)
  | 43 :: rest => (43, rest)
  | bs => (43, bs)

/-- The exponent, if there is one, always with a small letter and a sign. -/
def exponentPart (bs : List UInt8) : Read (List UInt8) :=
  match bs with
  | b :: rest =>
    if b = 101 ∨ b = 69 then
      let (sign, rest) := exponentSign rest
      (digits rest).andThen fun ds rest => .ok (101 :: sign :: ds, rest)
    else .ok ([], bs)
  | [] => .ok ([], [])

def signPart (bs : List UInt8) : List UInt8 × List UInt8 :=
  match bs with
  | 45 :: rest => ([45], rest)
  | bs => ([], bs)

def asciiText (bs : List UInt8) : String := String.ofList (bs.map fun b => Char.ofNat b.toNat)

def number (bs : List UInt8) : Read String :=
  let (sign, bs) := signPart bs
  (integerPart bs).andThen fun whole bs =>
  (fractionPart bs).andThen fun fraction bs =>
  (exponentPart bs).andThen fun exponent bs =>
  .ok (asciiText (sign ++ whole ++ fraction ++ exponent), bs)

/-! ## Strings -/

def hexDigit? (b : UInt8) : Option Nat :=
  if isDigit b then some (b.toNat - 48)
  else if 97 ≤ b && b ≤ 102 then some (b.toNat - 87)
  else if 65 ≤ b && b ≤ 70 then some (b.toNat - 55)
  else none

/-- Four hexadecimal digits. All four are read before they are judged. -/
def hexUnit (bs : List UInt8) : Read Nat :=
  match bs with
  | a :: b :: c :: d :: rest =>
    match hexDigit? a, hexDigit? b, hexDigit? c, hexDigit? d with
    | some a, some b, some c, some d => .ok (((a * 16 + b) * 16 + c) * 16 + d, rest)
    | _, _, _, _ => faultAfter .invalidEscape rest
  | _ => faultAfter .endOfString []

def oneOctet (b : UInt8) (m : Mistake) (bs : List UInt8) : Read Unit :=
  match bs with
  | [] => faultAfter .endOfString []
  | c :: rest => if c = b then .ok ((), rest) else faultAfter m rest

def lowUnit (bs : List UInt8) : Read Nat :=
  (oneOctet 92 .halfSurrogatePair bs).andThen fun _ bs =>
  (oneOctet 117 .halfSurrogatePair bs).andThen fun _ bs =>
  (hexUnit bs).andThen fun n bs =>
  if 0xDC00 ≤ n ∧ n < 0xE000 then .ok (n, bs) else faultAfter .loneSurrogate bs

def unicodeEscape (bs : List UInt8) : Read Char :=
  (hexUnit bs).andThen fun n bs =>
  if 0xDC00 ≤ n ∧ n < 0xE000 then faultAfter .loneSurrogate bs
  else if 0xD800 ≤ n ∧ n < 0xDC00 then
    (lowUnit bs).andThen fun low bs =>
    .ok (Char.ofNat (0x10000 + (n - 0xD800) * 0x400 + (low - 0xDC00)), bs)
  else .ok (Char.ofNat n, bs)

def escape (bs : List UInt8) : Read (List UInt8) :=
  match bs with
  | [] => faultAfter .endOfString []
  | 34 :: rest => .ok ([34], rest)
  | 92 :: rest => .ok ([92], rest)
  | 47 :: rest => .ok ([47], rest)
  | 98 :: rest => .ok ([8], rest)
  | 102 :: rest => .ok ([12], rest)
  | 110 :: rest => .ok ([10], rest)
  | 114 :: rest => .ok ([13], rest)
  | 116 :: rest => .ok ([9], rest)
  | 117 :: rest => (unicodeEscape rest).andThen fun c rest => .ok (String.utf8EncodeChar c, rest)
  | _ :: rest => faultAfter .invalidEscape rest

/-- The octets of a string up to its closing quote. Those read so far are `acc`, last first. -/
def stringOctets : Nat → List UInt8 → List UInt8 → Read (List UInt8)
  | 0, _, _ => faultAfter .endOfString []
  | _ + 1, _, [] => faultAfter .endOfString []
  | limit + 1, acc, b :: rest =>
    if b = 34 then .ok (acc.reverse, rest)
    else if b = 92 then
      (escape rest).andThen fun cs rest => stringOctets limit (cs.reverse ++ acc) rest
    else if b < 32 then faultAfter .controlCharacter rest
    else stringOctets limit (b :: acc) rest

/-- A string after its opening quote. The column of a string that is no text is moved back by the
number of octets after the longest beginning that is one. -/
def string (limit : Nat) (bs : List UInt8) : Read String :=
  (stringOctets limit [] bs).andThen fun cs rest =>
  match Utf8.decode? cs with
  | some s => .ok (s, rest)
  | none => .error (.after .invalidText rest.length (cs.length - Utf8.validLength cs))

/-! ## Arrays and objects -/

def nextElement (first : Bool) (bs : List UInt8) : Read Bool :=
  match skipSpace bs with
  | [] => faultAt .endOfList []
  | b :: rest =>
    if b = 93 then .ok (false, rest)
    else if first then .ok (true, b :: rest)
    else if b = 44 then
      match skipSpace rest with
      | [] => faultAt .endOfValue []
      | b :: rest => if b = 93 then faultAt .trailingComma (b :: rest) else .ok (true, b :: rest)
    else faultAt .expectedCommaOrBracket (b :: rest)

def elements (item : α → List UInt8 → Read α) : Nat → Bool → α → List UInt8 → Read α
  | 0, _, _, _ => faultAt .endOfList []
  | limit + 1, first, acc, bs =>
    (nextElement first bs).andThen fun more rest =>
    if more then (item acc rest).andThen fun acc rest => elements item limit false acc rest
    else .ok (acc, rest)

def nextKey (limit : Nat) (first : Bool) (bs : List UInt8) : Read (Option String) :=
  let key (bs : List UInt8) : Read (Option String) :=
    (string limit bs).andThen fun s rest => .ok (some s, rest)
  match skipSpace bs with
  | [] => faultAt .endOfObject []
  | b :: rest =>
    if b = 125 then .ok (none, rest)
    else if first then if b = 34 then key rest else faultAt .keyNotString (b :: rest)
    else if b = 44 then
      match skipSpace rest with
      | [] => faultAt .endOfValue []
      | b :: rest =>
        if b = 34 then key rest
        else if b = 125 then faultAt .trailingComma (b :: rest)
        else faultAt .keyNotString (b :: rest)
    else faultAt .expectedCommaOrBrace (b :: rest)

def members (limit : Nat) (item : α → String → List UInt8 → Read α) :
    Nat → Bool → α → List UInt8 → Read α
  | 0, _, _, _ => faultAt .endOfObject []
  | n + 1, first, acc, bs =>
    (nextKey limit first bs).andThen fun key? rest =>
    match key? with
    | none => .ok (acc, rest)
    | some key =>
      (item acc key rest).andThen fun acc rest => members limit item n false acc rest

def colon (bs : List UInt8) : Read Unit :=
  match skipSpace bs with
  | [] => faultAt .endOfObject []
  | b :: rest => if b = 58 then .ok ((), rest) else faultAt .expectedColon (b :: rest)

/-! ## Numbers that stand inside strings -/

/-- An object whose first key is this one stands for the number that its value spells. -/
def numberKey : String := "$serde_json::private::Number"

/-- The value where some other type was wanted. A scalar is read before it is refused, so a mistake
in its text comes first; an array or an object is refused at its bracket. -/
def refuse (limit : Nat) (expected : String) (bs : List UInt8) : Read α :=
  let refuseAfter (found : Json) (rest : List UInt8) : Read α :=
    faultAfter (.wrongType found.describe expected) rest
  match skipSpace bs with
  | [] => faultAt .endOfValue []
  | b :: rest =>
    if b = 110 then
      (word [117, 108, 108] () rest).andThen fun _ => refuseAfter .null
    else if b = 116 then
      (word [114, 117, 101] () rest).andThen fun _ => refuseAfter (.bool true)
    else if b = 102 then
      (word [97, 108, 115, 101] () rest).andThen fun _ => refuseAfter (.bool false)
    else if b = 45 || isDigit b then
      (number (b :: rest)).andThen fun text => refuseAfter (.num text)
    else if b = 34 then
      (string limit rest).andThen fun s => refuseAfter (.str s)
    else if b = 91 then refuseAfter (.arr []) (b :: rest)
    else if b = 123 then refuseAfter (.obj []) (b :: rest)
    else faultAt .expectedValue (b :: rest)

/-- The number that is the whole of a text. An octet that is left over, even after a mistake, is
itself the mistake. -/
def wholeNumber (s : String) : Except Fault String :=
  let bs := Utf8.encode s
  let fault (m : Mistake) (unread : Nat) : Except Fault String :=
    if unread = 0 then .error (.inNumber m (.after bs))
    else .error (.inNumber .invalidNumber (.after (bs.take (bs.length - (unread - 1)))))
  match bs with
  | [] => fault .endOfValue 0
  | b :: rest =>
    if b = 45 || isDigit b then
      match number (b :: rest) with
      | .ok (text, []) => .ok text
      | .ok (_, left) => fault .invalidNumber left.length
      | .error (.after m unread _) | .error (.ahead m unread) => fault m unread
      | .error f => .error f
    else fault .invalidNumber (b :: rest).length

def numberObject (limit : Nat) (bs : List UInt8) : Read String :=
  (colon bs).andThen fun _ bs =>
  match skipSpace bs with
  | 34 :: rest =>
    (string limit rest).andThen fun s rest =>
    match wholeNumber s with
    | .error fault => .error fault
    | .ok text =>
      match skipSpace rest with
      | [] => faultAt .endOfObject []
      | 125 :: rest => .ok (text, rest)
      | 44 :: rest => faultAt .trailingComma (44 :: rest)
      | rest => faultAt .trailingCharacters rest
  | bs => refuse limit "string containing a number" bs

/-! ## Values -/

def array (limit : Nat) (value : List UInt8 → Read Json) (bs : List UInt8) : Read Json :=
  let item (acc : List Json) (bs : List UInt8) : Read (List Json) :=
    (value bs).andThen fun v rest => .ok (v :: acc, rest)
  (elements item limit true [] bs).andThen fun items rest => .ok (.arr items.reverse, rest)

def member (value : List UInt8 → Read Json) (o : Object) (key : String) (bs : List UInt8) :
    Read Object :=
  (colon bs).andThen fun _ bs =>
  (value bs).andThen fun v bs =>
  .ok (o.insert key v, bs)

def object (spelled : Bool) (limit : Nat) (value : List UInt8 → Read Json) (bs : List UInt8) :
    Read Json :=
  (nextKey limit true bs).andThen fun key? rest =>
  match key? with
  | none => .ok (.obj [], rest)
  | some key =>
    if spelled && key = numberKey then
      (numberObject limit rest).andThen fun text rest => .ok (.num text, rest)
    else
      (member value [] key rest).andThen fun o rest =>
      (members limit (member value) limit false o rest).andThen fun o rest => .ok (.obj o, rest)

/-- One value. What stands inside brackets is read by `inner`; without it no bracket may open. -/
def valueWith (spelled : Bool) (limit : Nat) (inner : Option (List UInt8 → Read Json))
    (bs : List UInt8) : Read Json :=
  match skipSpace bs with
  | [] => faultAt .endOfValue []
  | b :: rest =>
    if b = 110 then word [117, 108, 108] .null rest
    else if b = 116 then word [114, 117, 101] (.bool true) rest
    else if b = 102 then word [97, 108, 115, 101] (.bool false) rest
    else if b = 45 || isDigit b then
      (number (b :: rest)).andThen fun text rest => .ok (.num text, rest)
    else if b = 34 then
      (string limit rest).andThen fun s rest => .ok (.str s, rest)
    else if b = 91 then
      match inner with
      | none => faultAt .tooDeep (b :: rest)
      | some value => array limit value rest
    else if b = 123 then
      match inner with
      | none => faultAt .tooDeep (b :: rest)
      | some value => object spelled limit value rest
    else faultAt .expectedValue (b :: rest)

/-- One value with at most `depth` open brackets. If `spelled` is set, objects may spell numbers. -/
def value (spelled : Bool) (limit : Nat) : Nat → List UInt8 → Read Json
  | 0 => valueWith spelled limit none
  | depth + 1 => valueWith spelled limit (some (value spelled limit depth))

def maxDepth : Nat := 127

def endOfText (a : α) (bs : List UInt8) : Read α :=
  match skipSpace bs with
  | [] => .ok (a, [])
  | bs => faultAt .trailingCharacters bs

def whole (read : Nat → List UInt8 → Read α) (bs : List UInt8) : Except Error α :=
  match (read (bs.length + 1) bs).andThen endOfText with
  | .error f => .error (locate f)
  | .ok (a, _) => .ok a
where
  locate : Fault → Error
    | .after m unread back => .inText m ((Position.after (bs.take (bs.length - unread))).back back)
    | .ahead m unread => .inText m (Position.after (bs.take (bs.length - (unread - 1))))
    | .inNumber m p => .inNumber m p

end Reader

def parse (bs : List UInt8) : Except Error Json :=
  Reader.whole (fun limit => Reader.value true limit Reader.maxDepth) bs

end NotebookCleaning.Json
