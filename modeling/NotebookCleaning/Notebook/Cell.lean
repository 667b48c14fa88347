import NotebookCleaning.Json.Basic
import NotebookCleaning.Text.Blank

/-!
# Cells

A cell is a JSON object. Its producers disagree on which optional fields they write, so each field
is read through a function that says what its absence means.
-/

namespace NotebookCleaning

inductive CellType where
  | code
  | markdown
  | raw
  | other (name : String)
  deriving DecidableEq

namespace CellType

/-- The type that a field names. A missing field, and one that is no string, has the empty name. -/
def ofField : Option Json → CellType
  | some (.str "code") => .code
  | some (.str "markdown") => .markdown
  | some (.str "raw") => .raw
  | some (.str name) => .other name
  | _ => .other ""

end CellType

inductive Source where
  | absent
  | text (s : String)
  | lines (items : List Json)
  | unrecognized (v : Json)

namespace Source

def ofField : Option Json → Source
  | none | some .null => .absent
  | some (.str s) => .text s
  | some (.arr items) => .lines items
  | some v => .unrecognized v

/-- A line that is null is blank; a line of any other type but a string is not. -/
def isBlankLine : Json → Bool
  | .str s => Blank.isBlank s
  | .null => true
  | _ => false

def isBlank : Source → Bool
  | absent => true
  | text s => Blank.isBlank s
  | lines items => items.all isBlankLine
  | unrecognized _ => false

end Source

abbrev Cell := Object

namespace Cell

def cellType (c : Cell) : CellType := .ofField (Object.get? c "cell_type")

def isCode (c : Cell) : Bool := c.cellType = .code

def source (c : Cell) : Source := .ofField (Object.get? c "source")

def isBlank (c : Cell) : Bool := c.source.isBlank

/-- A null count is no count. -/
def executionCount? (c : Cell) : Option Json :=
  (Object.get? c "execution_count").filter fun v => !v.isNull

/-- An array of outputs counts if it has items; any other value but null counts. -/
def hasOutputs (c : Cell) : Bool :=
  match Object.get? c "outputs" with
  | none | some .null => false
  | some (.arr items) => !items.isEmpty
  | some _ => true

/-- Whether a value among the outputs is an object with a count. -/
def isCountedOutput : Json → Bool
  | .obj o => (executionCount? o).isSome
  | _ => false

/-- How many outputs carry a count of their own. -/
def countedOutputs (c : Cell) : Nat :=
  match Object.get? c "outputs" with
  | some (.arr items) => items.countP isCountedOutput
  | _ => 0

def metadata? (c : Cell) : Option Object := (Object.get? c "metadata").bind Json.object?

end Cell

end NotebookCleaning
