import NotebookCleaning.Command.Arguments
import NotebookCleaning.Command.Clean
import NotebookCleaning.Command.Filter

/-!
# Running a command line

`run` carries out a list of arguments in a world of files, a standard input and a git, and gives
what is printed together with the world that is left.
-/

namespace NotebookCleaning.Command

structure World where
  sources : Sources
  git : Git
  color : Bool

structure Outcome where
  exit : Nat
  /-- What is printed on both streams. The texts about the use of the program are not told. -/
  printed : Option (String × String)
  tree : FileTree
  /-- The calls that git got. -/
  calls : List (List String) := []

def versionText : String := "nb-clean 0.1.0\n"

namespace World

def finish (output : Output) (t : FileTree) (calls : List (List String)) : Outcome where
  exit := output.exit
  printed := some (output.stdout, output.stderr)
  tree := t
  calls := calls

def carryOut (w : World) (r : Request) : Outcome :=
  let v : Voice := ⟨r.verbosity, w.color⟩
  let s := w.sources
  let ifValid (go : Config → Outcome) : Outcome :=
    match r.config.validate with
    | .ok c => go c
    | .error e => finish { exit := 2, stderr := errorLine v e.message } s.tree []
  match r.verb with
  | .check => ifValid fun c => finish (runCheck v c r.json s r.paths) s.tree []
  | .clean => ifValid fun c =>
    let (output, t) := runClean v c s r.paths
    finish output t []
  | .addFilter => ifValid fun c =>
    let (output, repository) := runAddFilter v c ⟨s.tree, w.git, []⟩
    finish output repository.tree (w.git.received repository.calls)
  | .removeFilter =>
    let (output, repository) := runRemoveFilter v ⟨s.tree, w.git, []⟩
    finish output repository.tree (w.git.received repository.calls)
  | .version => finish { exit := 0, stdout := versionText } s.tree []

def run (w : World) (args : List String) : Outcome :=
  match parse args with
  | .ok r => w.carryOut r
  | .error .version => finish { exit := 0, stdout := versionText } w.sources.tree []
  | .error .help => ⟨0, none, w.sources.tree, []⟩
  | .error .misuse => ⟨2, none, w.sources.tree, []⟩

end World

end NotebookCleaning.Command
