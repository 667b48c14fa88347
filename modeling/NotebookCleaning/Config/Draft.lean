import NotebookCleaning.Config.Basic
import NotebookCleaning.Json.Error
import NotebookCleaning.Json.Integer

/-!
# Configurations from JSON

A configuration is an object of settings. Missing settings have their defaults, other keys mean
nothing, and a setting given twice is a mistake. An array gives the settings by position. The two
drafts collect what has been said so far, in whatever order it comes.
-/

namespace NotebookCleaning

open Json (Mistake)

/-- The word that tells the policies apart. -/
inductive Mode where
  | strip
  | preserveAll
  | preserve
  deriving DecidableEq

def Mode.ofName? : String → Except Mistake Mode
  | "strip" => .ok strip
  | "preserve_all" => .ok preserveAll
  | "preserve" => .ok preserve
  | name => .error (.unknownVariant name "one of `strip`, `preserve_all`, `preserve`")

namespace Json

def boolean? : Json → Except Mistake Bool
  | .bool b => .ok b
  | v => .error (.wrongType v.describe "a boolean")

def null? : Json → Except Mistake Unit
  | .null => .ok ()
  | v => .error (.wrongType v.describe "no fields")

def string? : Json → Except Mistake String
  | .str s => .ok s
  | v => .error (.wrongType v.describe "a string")

def strings? : Json → Except Mistake (List String)
  | .arr items => items.mapM string?
  | v => .error (.wrongType v.describe "a sequence")

end Json

/-- A mode is its name, or an object with the name as its only key and null as the value. -/
def Mode.ofJson? : Json → Except Mistake Mode
  | .str name => ofName? name
  | .obj [(name, v)] => do
    let m ← ofName? name
    v.null?
    return m
  | .obj es => .error (.wrongLength es.length "an object with one key")
  | v => .error (.wrongType v.describe "string or map")

/-- What has been said about a policy. -/
inductive PolicyDraft where
  | empty
  | mode (m : Mode)
  | fields (v : Json)
  | full (p : MetadataPolicy)

namespace PolicyDraft

/-- The policy of a mode and its fields. Only one mode has fields; for the others they are null. -/
def policy : Mode → Json → Except Mistake MetadataPolicy
  | .strip, v => v.null?.map fun _ => .strip
  | .preserveAll, v => v.null?.map fun _ => .preserveAll
  | .preserve, v => v.strings?.map fun fs => .preserve (.ofList fs)

def addMode (m : Mode) : PolicyDraft → Except Mistake PolicyDraft
  | empty => .ok (mode m)
  | fields v => (policy m v).map full
  | _ => .error (.duplicateField "mode")

def addFields (v : Json) : PolicyDraft → Except Mistake PolicyDraft
  | empty => .ok (fields v)
  | mode m => (policy m v).map full
  | _ => .error (.duplicateField "fields")

def finish : PolicyDraft → Except Mistake MetadataPolicy
  | full p => .ok p
  | mode .strip => .ok .strip
  | mode .preserveAll => .ok .preserveAll
  | mode .preserve => .error (.missingField "fields")
  | _ => .error (.missingField "mode")

def addEntry (d : PolicyDraft) (e : String × Json) : Except Mistake PolicyDraft :=
  if e.1 = "mode" then do d.addMode (← Mode.ofJson? e.2)
  else if e.1 = "fields" then d.addFields e.2
  else .ok d

end PolicyDraft

/-- A policy is an object with a mode and fields, in whatever order, or an array of the name of the
mode and the fields. -/
def MetadataPolicy.ofJson? : Json → Except Mistake MetadataPolicy
  | .obj entries => do (← entries.foldlM PolicyDraft.addEntry .empty).finish
  | .arr [name, v] => do PolicyDraft.policy (← Mode.ofName? (← name.string?)) v
  | .arr items => .error (.wrongLength items.length "a mode and fields")
  | v => .error (.wrongType v.describe "a policy")

/-- The settings so far and the names of those that have been given. -/
structure ConfigDraft where
  given : List String := []
  config : Config := {}

namespace ConfigDraft

def note (name : String) (d : ConfigDraft) : Except Mistake ConfigDraft :=
  if d.given.contains name then .error (.duplicateField name)
  else .ok { d with given := name :: d.given }

def setFlag (flag : Config.Flag) (b : Bool) (d : ConfigDraft) : ConfigDraft :=
  { d with config := d.config.set flag b }

def setPolicy (p : MetadataPolicy) (d : ConfigDraft) : ConfigDraft :=
  { d with config := { d.config with cellMetadata := p } }

end ConfigDraft

namespace Config

inductive Setting where
  | flag (f : Flag)
  | policy

namespace Setting

def name : Setting → String
  | flag f => f.name
  | policy => cellMetadataName

def ofName? (s : String) : Option Setting :=
  if s = cellMetadataName then some policy else (Flag.ofName? s).map flag

/-- The settings in the order of an array. -/
def positional : List Setting :=
  [flag .removeEmptyCells, policy, flag .preserveOutputs, flag .preserveCounts,
    flag .preserveNotebookMetadata, flag .removeNotebookMetadata]

def read (s : Setting) (v : Json) (d : ConfigDraft) : Except Mistake ConfigDraft :=
  match s with
  | flag f => v.boolean?.map fun b => d.setFlag f b
  | policy => (MetadataPolicy.ofJson? v).map fun p => d.setPolicy p

end Setting

def addEntry (d : ConfigDraft) (e : String × Json) : Except Mistake ConfigDraft :=
  match Setting.ofName? e.1 with
  | some s => do s.read e.2 (← d.note e.1)
  | none => .ok d

def addPositions : List Setting → List Json → ConfigDraft → Except Mistake ConfigDraft
  | _, [], d => .ok d
  | [], v :: vs, _ =>
    .error (.wrongLength (Setting.positional.length + (v :: vs).length) "fewer elements in array")
  | s :: ss, v :: vs, d => do addPositions ss vs (← s.read v d)

def ofJson? (v : Json) : Except Mistake Config :=
  match v with
  | .obj entries => (entries.foldlM addEntry {}).map ConfigDraft.config
  | .arr items => (addPositions Setting.positional items {}).map ConfigDraft.config
  | v => .error (.wrongType v.describe "a configuration")

end Config

end NotebookCleaning
