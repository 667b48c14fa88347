import NotebookCleaning.Clean
import NotebookCleaning.Config.Draft
import NotebookCleaning.Finding
import NotebookCleaning.Notebook.Text

/-!
# Calls with keyword options

A caller that hands over a notebook as text gives its settings as named options. Options of the
wrong name or type are refused before anything else; then the settings are judged, and only then is
the notebook read.
-/

namespace NotebookCleaning

structure Options where
  flags : List (Config.Flag × Bool) := []
  preserveAll : Bool := false
  fields : Option (List String) := none

namespace Options

inductive Failure where
  /-- An option with an unknown name, or a value of the wrong type. -/
  | badOption (name : String)
  | bothPolicies
  | because (e : Error)

def Failure.message : Failure → String
  | badOption name => "unexpected value for option " ++ name
  | bothPolicies =>
    "`preserve_all_cell_metadata` and `preserve_cell_metadata` cannot both be given"
  | because e => e.message

def preserveAllName : String := "preserve_all_cell_metadata"

def boolean (name : String) (v : Json) : Except Failure Bool :=
  v.boolean?.mapError fun _ => .badOption name

/-- Null is no list. -/
def fieldList (name : String) : Json → Except Failure (Option (List String))
  | .null => .ok none
  | v => (v.strings?.map some).mapError fun _ => .badOption name

def addEntry (o : Options) (e : String × Json) : Except Failure Options :=
  if e.1 = preserveAllName then do return { o with preserveAll := ← boolean e.1 e.2 }
  else if e.1 = Config.cellMetadataName then do return { o with fields := ← fieldList e.1 e.2 }
  else
    match Config.Flag.ofName? e.1 with
    | some flag => do return { o with flags := (flag, ← boolean e.1 e.2) :: o.flags }
    | none => .error (.badOption e.1)

def ofEntries? (entries : Object) : Except Failure Options := entries.foldlM addEntry {}

/-- A list of fields keeps those fields, even if it is empty. -/
def policy (o : Options) : Except Failure MetadataPolicy :=
  match o.preserveAll, o.fields with
  | true, none => .ok .preserveAll
  | true, some _ => .error .bothPolicies
  | false, none => .ok .strip
  | false, some fs => .ok (.preserve (.ofList fs))

/-- The configuration of the options, before it is judged. -/
def config (o : Options) : Except Failure Config := do
  return o.flags.foldr (fun f c => c.set f.1 f.2) { cellMetadata := ← o.policy }

def validConfig (o : Options) : Except Failure Config := do
  (← o.config).validate.mapError .because

def clean (text : String) (o : Options) : Except Failure String := do
  let c ← o.validConfig
  let nb ← (Notebook.ofText? text).mapError .because
  return (← (nb.clean c).mapError .because).text

def check (text : String) (o : Options) : Except Failure (List Finding) := do
  let c ← o.validConfig
  let nb ← (Notebook.ofText? text).mapError .because
  (nb.check c).mapError .because

end Options

end NotebookCleaning
