import NotebookCleaning.Clean
import NotebookCleaning.Command.Check

/-!
# The clean command

The inputs are cleaned one after the other. A file is written only if its content changes; a
notebook from the standard input is printed. An input that gives no notebook is reported and leaves
everything as it is.
-/

namespace NotebookCleaning.Command

inductive CleanAction where
  | printed (text : String)
  | kept
  | written
  | unwritable (cause : FileError)

/-- What cleaning did with an input. -/
structure Cleaned where
  input : Input
  result : Except InputError (Notebook × CleanAction)

namespace Cleaned

def isFailure (r : Cleaned) : Bool :=
  match r.result with
  | .ok (_, .unwritable _) | .error _ => true
  | .ok _ => false

def stdout (r : Cleaned) : String :=
  match r.result with
  | .ok (_, .printed text) => text
  | _ => ""

/-- The events of cleaning a notebook, before it is stored. -/
def cleaningEvents (c : Config) (nb : Notebook) : List Event :=
  (if c.removeEmptyCells then
    [⟨.debug, "dropped empty cells",
      [("removed", toString (nb.cells.length - (nb.cleaned c).cells.length))]⟩]
  else []) ++
  if !c.removeNotebookMetadata && !c.preserveNotebookMetadata && nb.languageVersion?.isSome then
    [⟨.debug, "removed metadata.language_info.version", []⟩]
  else []

def storingEvents (i : Input) : CleanAction → List Event
  | .kept => [⟨.debug, "already clean", [("path", i.name)]⟩]
  | .written => [⟨.info, "cleaned notebook", [("path", i.name)]⟩]
  | _ => []

def failure (v : Voice) (r : Cleaned) : String :=
  match r.result with
  | .error e => errorLine v (r.input.name ++ ": " ++ r.input.explain e)
  | .ok (_, .unwritable cause) =>
    errorLine v
      (r.input.name ++ ": failed to write " ++ r.input.name ++ ": " ++ cause.message)
  | .ok _ => ""

def stderr (v : Voice) (c : Config) (r : Cleaned) : String :=
  (match r.result with
    | .ok (nb, action) =>
      String.join ((cleaningEvents c nb ++ storingEvents r.input action).map (Event.line v))
    | .error _ => "") ++ r.failure v

end Cleaned

/-- Stores a cleaned notebook at the path of the notebook it came from. -/
def store (t : FileTree) (p : Path) (original cleaned : Notebook) : CleanAction × FileTree :=
  if original.same cleaned && (t.readText p).toOption = some cleaned.text then (.kept, t)
  else
    match t.write p (Utf8.encode cleaned.text) with
    | .ok t => (.written, t)
    | .error e => (.unwritable e, t)

def cleanInput (c : Config) (s : Sources) (i : Input) : Cleaned × FileTree :=
  match i.notebook s with
  | .error e => (⟨i, .error e⟩, s.tree)
  | .ok nb =>
    match nb.clean c with
    | .error e => (⟨i, .error (.unusable e)⟩, s.tree)
    | .ok cleaned =>
      match i with
      | .standard => (⟨i, .ok (nb, .printed cleaned.text)⟩, s.tree)
      | .file p =>
        let (action, tree) := store s.tree p nb cleaned
        (⟨i, .ok (nb, action)⟩, tree)

def cleanInputs (c : Config) : Sources → List Input → List Cleaned × FileTree
  | s, [] => ([], s.tree)
  | s, i :: is =>
    let (r, tree) := cleanInput c s i
    let (rs, tree) := cleanInputs c { s with tree := tree } is
    (r :: rs, tree)

def runClean (v : Voice) (c : Config) (s : Sources) (paths : List Path) : Output × FileTree :=
  let (rs, tree) := cleanInputs c s (s.tree.inputs paths)
  ({ exit := if rs.any Cleaned.isFailure then 1 else 0
     stdout := String.join (rs.map Cleaned.stdout)
     stderr := String.join (rs.map (Cleaned.stderr v c)) }, tree)

end NotebookCleaning.Command
