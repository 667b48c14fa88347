import NotebookCleaning.Attributes
import NotebookCleaning.Command.Check
import NotebookCleaning.Command.Git
import NotebookCleaning.Text.Quoted

/-!
# Installing the filter

The filter of a repository consists of a command in its configuration, which git keeps, and a line
in its attributes file. Adding it stores the command first and the line then; removing it takes the
line out first. The first failure ends either of them.
-/

namespace NotebookCleaning.Command

/-- A repository: its files, its git and the calls of git that have been tried. -/
structure Repository where
  tree : FileTree
  git : Git
  calls : List (List String) := []

inductive FilterError where
  | config (cause : Error)
  | git (cause : GitError)
  | attributes (path : Path) (cause : FileError)

namespace FilterError

def message : FilterError → String
  | config cause => cause.message
  | git cause => cause.message
  | attributes path cause => "failed to update " ++ path.text ++ ": " ++ cause.message

def code : FilterError → Nat
  | config _ => 2
  | git cause => cause.code
  | attributes .. => 1

end FilterError

def filterName : String := "filter.nb-clean"

namespace Repository

def callGit (args : List String) (r : Repository) : Except FilterError String × Repository :=
  let (result, git) := r.git.call args
  (result.mapError .git, { r with git := git, calls := r.calls ++ [args] })

/-- The attributes file in the directory of the repository. -/
def attributesPath (directory : String) : Path := (Path.join ⟨directory⟩ "info").join "attributes"

/-- The text of the attributes file. A missing file is an empty one. -/
def attributesText (t : FileTree) (p : Path) : Except FileError String :=
  match t.readText p with
  | .error .notFound => .ok ""
  | r => r

/-- Adds the line and says whether it was missing. -/
def addLine (t : FileTree) (directory : String) : Except FileError (Bool × FileTree) := do
  let p := attributesPath directory
  match Attributes.add (← attributesText t p) with
  | none => return (false, t)
  | some text =>
    let t ← t.makeDirectories (Path.join ⟨directory⟩ "info")
    return (true, ← t.write p (Utf8.encode text))

def removeLine (t : FileTree) (directory : String) : Except FileError FileTree := do
  let p := attributesPath directory
  if t.isFile p then t.write p (Utf8.encode (Attributes.remove (← t.readText p))) else return t

def addFilter (c : Config) (r : Repository) : Except FilterError Bool × Repository :=
  match c.filterCommand? with
  | .error e => (.error (.config e), r)
  | .ok command =>
    match r.callGit ["config", filterName ++ ".clean", command] with
    | (.error e, r) => (.error e, r)
    | (.ok _, r) =>
      match r.callGit ["rev-parse", "--git-dir"] with
      | (.error e, r) => (.error e, r)
      | (.ok directory, r) =>
        match addLine r.tree directory with
        | .error e => (.error (.attributes (attributesPath directory) e), r)
        | .ok (added, t) => (.ok added, { r with tree := t })

def removeFilter (r : Repository) : Except FilterError Unit × Repository :=
  match r.callGit ["rev-parse", "--git-dir"] with
  | (.error e, r) => (.error e, r)
  | (.ok directory, r) =>
    match removeLine r.tree directory with
    | .error e => (.error (.attributes (attributesPath directory) e), r)
    | .ok t =>
      match { r with tree := t }.callGit ["config", "--remove-section", filterName] with
      | (.error e, r) => (.error e, r)
      | (.ok _, r) => (.ok (), r)

end Repository

def callEvent (args : List String) : Event :=
  ⟨.debug, "running git", [("args", Quoted.quoteList args)]⟩

/-- What is printed about a change of the filter: the calls of git, then how it ended. -/
def filterOutput (v : Voice) (calls : List (List String)) (result : Except FilterError Event) :
    Output :=
  let lines := String.join (calls.map fun args => (callEvent args).line v)
  match result with
  | .ok event => { exit := 0, stderr := lines ++ event.line v }
  | .error e => { exit := e.code, stderr := lines ++ errorLine v e.message }

def addedEvent (c : Config) (added : Bool) : Event :=
  ⟨.info, "installed nb-clean filter",
    [("command", c.filterCommand), ("added", if added then "true" else "false")]⟩

def removedEvent : Event := ⟨.info, "removed nb-clean filter", []⟩

def runAddFilter (v : Voice) (c : Config) (r : Repository) : Output × Repository :=
  let (result, r) := r.addFilter c
  (filterOutput v r.calls (result.map (addedEvent c)), r)

def runRemoveFilter (v : Voice) (r : Repository) : Output × Repository :=
  let (result, r) := r.removeFilter
  (filterOutput v r.calls (result.map fun _ => removedEvent), r)

end NotebookCleaning.Command
