import NotebookCleaning.Clean
import NotebookCleaning.Config.Draft
import NotebookCleaning.Finding
import NotebookCleaning.Notebook.Text

/-!
# Sessions

A session works on a current notebook under a configuration and can save one notebook to come back
to. A step that fails changes nothing.
-/

namespace NotebookCleaning

structure Session where
  current : Option Notebook := none
  saved : Option Notebook := none
  config : Config := {}

namespace Session

inductive Step where
  | load (octets : List UInt8)
  | clean
  | check
  | reload
  | save
  | restore
  | compare
  | write
  | inspect
  /-- Replaces the configuration, by the default if none is given. -/
  | configure (v : Option Json)
  | request (fields : Option (List String))
  | set (flag : Config.Flag) (b : Bool)

inductive Answer where
  | loaded (cells : Nat)
  | output (text : String)
  | report (findings : List Finding)
  /-- Whether the notebook that was written and read again is the one before. -/
  | reloaded (same : Bool)
  | stored
  | compared (same : Bool)
  | inspected (nb : Notebook)
  | configured (c : Config)

inductive Failure where
  | noNotebook
  | nothingSaved
  | because (e : Error)

def Failure.message : Failure → String
  | noNotebook => "no notebook"
  | nothingSaved => "nothing saved"
  | because e => e.message

/-- Equality of what is there, up to the order of entries. -/
def sameNotebook : Option Notebook → Option Notebook → Bool
  | none, none => true
  | some a, some b => a.same b
  | _, _ => false

def getCurrent (s : Session) : Except Failure Notebook :=
  match s.current with
  | some nb => .ok nb
  | none => .error .noNotebook

def configured (s : Session) (c : Config) : Answer × Session :=
  (.configured c, { s with config := c })

def step (s : Session) : Step → Except Failure (Answer × Session)
  | .load octets => do
    let nb ← (Notebook.ofOctets? octets).mapError .because
    return (.loaded nb.cells.length, { s with current := some nb })
  | .clean => do
    let nb ← ((← s.getCurrent).clean s.config).mapError .because
    return (.output nb.text, { s with current := some nb })
  | .check => do
    let findings ← ((← s.getCurrent).check s.config).mapError .because
    return (.report findings, s)
  | .reload => do
    let old ← s.getCurrent
    let nb ← (Notebook.ofText? old.text).mapError .because
    return (.reloaded (old.same nb), { s with current := some nb })
  | .save => do
    let nb ← s.getCurrent
    return (.stored, { s with saved := some nb })
  | .restore =>
    match s.saved with
    | some nb => .ok (.output nb.text, { s with current := some nb })
    | none => .error .nothingSaved
  | .compare => .ok (.compared (sameNotebook s.current s.saved), s)
  | .write => do return (.output (← s.getCurrent).text, s)
  | .inspect => do return (.inspected (← s.getCurrent), s)
  | .configure none => .ok (s.configured {})
  | .configure (some v) => do
    let c ← (Config.ofJson? v).mapError fun m => .because (.json (.inValue m))
    return s.configured c
  | .request fields => .ok (s.configured { s.config with cellMetadata := .ofRequest fields })
  | .set flag b => .ok (s.configured (s.config.set flag b))

end Session

end NotebookCleaning
