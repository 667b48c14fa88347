import NotebookCleaning.Files.Tree
import NotebookCleaning.Notebook.Text

/-!
# Inputs

The paths of a command name its inputs: a directory stands for the notebooks below it and any other
path for itself. Without a path the input is the standard input.
-/

namespace NotebookCleaning

inductive Input where
  | standard
  | file (path : Path)
  deriving DecidableEq

/-- Why an input gives no notebook. -/
inductive InputError where
  | unreadable (cause : FileError)
  | unusable (cause : Error)

structure Sources where
  standard : List UInt8
  tree : FileTree

namespace Input

def name : Input → String
  | standard => "stdin"
  | file p => p.text

def text (s : Sources) : Input → Except FileError String
  | standard =>
    match Utf8.decode? s.standard with
    | some text => .ok text
    | none => .error .notText
  | file p => s.tree.readText p

def notebook (s : Sources) (i : Input) : Except InputError Notebook :=
  match i.text s with
  | .error e => .error (.unreadable e)
  | .ok text => (Notebook.ofText? text).mapError .unusable

/-- The message of an error at this input, with its causes. -/
def explain (i : Input) : InputError → String
  | .unreadable cause => "failed to read " ++ i.name ++ ": " ++ cause.message
  | .unusable cause => cause.chain

end Input

namespace FileTree

def expand (t : FileTree) (p : Path) : List Path :=
  if t.isDirectory p then t.notebooksUnder p else [p]

/-- The paths that a list of arguments stands for, in ascending order. -/
def resolve (t : FileTree) (ps : List Path) : List Path := Path.ascending (ps.flatMap t.expand)

def inputs (t : FileTree) : List Path → List Input
  | [] => [.standard]
  | ps => (t.resolve ps).map .file

end FileTree

end NotebookCleaning
