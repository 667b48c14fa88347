import NotebookCleaning.Command.Log
import NotebookCleaning.Files.Input
import NotebookCleaning.Finding
import NotebookCleaning.Json.Printer

/-!
# The check command

Every input is checked on its own. The findings are printed as lines or as one JSON document; in
both an input that gives no notebook is reported and the others are checked all the same.
-/

namespace NotebookCleaning.Command

/-- What checking found out about an input. -/
structure Checked where
  input : Input
  result : Except InputError (Notebook × List Finding)

namespace Checked

def ofInput (c : Config) (s : Sources) (i : Input) : Checked where
  input := i
  result := do
    let nb ← i.notebook s
    return (nb, ← (nb.check c).mapError .unusable)

section OfInput

variable {c : Config} {s : Sources} {i : Input}

theorem ofInput_of_ok {nb : Notebook} {findings : List Finding} (hnb : i.notebook s = .ok nb)
    (hcheck : nb.check c = .ok findings) : ofInput c s i = ⟨i, .ok (nb, findings)⟩ := by
  rw [ofInput, hnb]
  simp only [bind, Except.bind, hcheck]
  rfl

theorem ofInput_of_error {e : InputError} (he : i.notebook s = .error e) :
    ofInput c s i = ⟨i, .error e⟩ := by
  rw [ofInput, he]
  rfl

end OfInput

def isClean (r : Checked) : Bool :=
  match r.result with
  | .ok (_, findings) => findings.isEmpty
  | .error _ => false

def lines (v : Voice) (r : Checked) : String :=
  match r.result with
  | .ok (_, findings) =>
    String.join (findings.map fun f => v.paint "1" r.input.name ++ ": " ++ f.message ++ "\n")
  | .error _ => ""

def entry (r : Checked) : Json :=
  match r.result with
  | .ok (_, findings) =>
    .obj [("path", .str r.input.name), ("clean", .bool findings.isEmpty),
      ("findings", .arr (findings.map fun f => .str f.message))]
  | .error e => .obj [("path", .str r.input.name), ("error", .str (r.input.explain e))]

def event (r : Checked) : Event :=
  match r.result with
  | .ok (nb, findings) =>
    ⟨.debug, "checked notebook",
      [("cells", toString nb.cells.length), ("findings", toString findings.length)]⟩
  | .error _ => ⟨.warn, "skipping unreadable notebook", [("path", r.input.name)]⟩

def failure (v : Voice) (r : Checked) : String :=
  match r.result with
  | .ok _ => ""
  | .error e => errorLine v (r.input.name ++ ": " ++ r.input.explain e)

end Checked

/-- What a command has printed, with its exit code. -/
structure Output where
  exit : Nat
  stdout : String := ""
  stderr : String := ""

def checkAll (c : Config) (s : Sources) (paths : List Path) : List Checked :=
  (s.tree.inputs paths).map (.ofInput c s)

/-- The exit code of a check: zero if every input is a clean notebook. -/
def checkExit (rs : List Checked) : Nat := if rs.all Checked.isClean then 0 else 1

def checkDocument (rs : List Checked) : Json :=
  .obj [("clean", .bool (rs.all Checked.isClean)), ("files", .arr (rs.map Checked.entry))]

def runCheck (v : Voice) (c : Config) (json : Bool) (s : Sources) (paths : List Path) : Output :=
  let rs := checkAll c s paths
  if json then
    { exit := checkExit rs
      stdout := (checkDocument rs).render 2 ++ "\n"
      stderr := String.join (rs.map fun r => r.event.line v) }
  else
    { exit := checkExit rs
      stdout := String.join (rs.map (Checked.lines v))
      stderr := String.join (rs.map fun r => r.event.line v ++ r.failure v) }

end NotebookCleaning.Command
