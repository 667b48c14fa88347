import NotebookCleaning.Json.Basic
import NotebookCleaning.Json.Position

/-!
# Errors of reading and writing JSON

A `Mistake` is a cause. Its category says whether the text breaks the grammar, ends too early, or
is well formed but holds what the reader of it did not expect.
-/

namespace NotebookCleaning.Json

inductive Category where
  | grammar
  | truncated
  | mismatch
  | output
  deriving DecidableEq

inductive Mistake where
  | endOfValue
  | endOfList
  | endOfObject
  | endOfString
  | expectedWord
  | expectedValue
  | expectedColon
  | expectedCommaOrBracket
  | expectedCommaOrBrace
  | trailingComma
  | trailingCharacters
  | keyNotString
  | tooDeep
  | invalidNumber
  | invalidEscape
  | controlCharacter
  | loneSurrogate
  | halfSurrogatePair
  | invalidText
  | wrongType (found expected : String)
  | wrongLength (found : Nat) (expected : String)
  | duplicateField (name : String)
  | missingField (name : String)
  | unknownVariant (found expected : String)
  deriving DecidableEq

namespace Mistake

def category : Mistake → Category
  | endOfValue | endOfList | endOfObject | endOfString => .truncated
  | wrongType .. | wrongLength .. | duplicateField _ | missingField _ | unknownVariant .. =>
    .mismatch
  | _ => .grammar

def text : Mistake → String
  | endOfValue => "EOF while parsing a value"
  | endOfList => "EOF while parsing a list"
  | endOfObject => "EOF while parsing an object"
  | endOfString => "EOF while parsing a string"
  | expectedWord => "expected ident"
  | expectedValue => "expected value"
  | expectedColon => "expected `:`"
  | expectedCommaOrBracket => "expected `,` or `]`"
  | expectedCommaOrBrace => "expected `,` or `\x7d`"
  | trailingComma => "trailing comma"
  | trailingCharacters => "trailing characters"
  | keyNotString => "key must be a string"
  | tooDeep => "recursion limit exceeded"
  | invalidNumber => "invalid number"
  | invalidEscape => "invalid escape"
  | controlCharacter => "control character (\\u0000-\\u001F) found while parsing a string"
  | loneSurrogate => "lone leading surrogate in hex escape"
  | halfSurrogatePair => "unexpected end of hex escape"
  | invalidText => "invalid unicode code point"
  | wrongType found expected => "invalid type: " ++ found ++ ", expected " ++ expected
  | wrongLength found expected =>
    "invalid length " ++ toString found ++ ", expected " ++ expected
  | duplicateField name => "duplicate field `" ++ name ++ "`"
  | missingField name => "missing field `" ++ name ++ "`"
  | unknownVariant found expected =>
    "unknown variant `" ++ found ++ "`, expected " ++ expected

end Mistake

inductive Error where
  | inText (mistake : Mistake) (position : Position)
  /-- A mistake in the text of a number that the document carries inside a string. The position is
  one in that string. -/
  | inNumber (mistake : Mistake) (position : Position)
  /-- A mistake in a value that did not come from a text. -/
  | inValue (mistake : Mistake)
  | writing

namespace Error

def category : Error → Category
  | inText m _ | inValue m => m.category
  | inNumber .. => .mismatch
  | writing => .output

def message : Error → String
  | inText m p | inNumber m p => m.text ++ p.text
  | inValue m => m.text
  | writing => "failed to write whole buffer"

end Error

end NotebookCleaning.Json
