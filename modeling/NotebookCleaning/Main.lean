import NotebookCleaning.Command.Run

/-!
# The program

Loads the part of the file system that the arguments name into a file tree, runs the command line on
it, stores the files that were written and prints what there is to print. Git cannot be called from
here.
-/

namespace NotebookCleaning.Program

open Command

def spelled (l : Location) : String := "/" ++ "/".intercalate l

def locationOf (path : String) : Location :=
  (Path.pieces ⟨path⟩).filter fun piece => piece ≠ ""

/-- What stands at a location, without following a link. -/
def kindAt (l : Location) : IO (Option IO.FS.FileType) := do
  try
    return some (← ((← IO.currentDir) / spelled l).symlinkMetadata).type
  catch _ => return none

def contentAt (l : Location) : IO (List UInt8) := do
  try
    return (← IO.FS.readBinFile (spelled l)).data.toList
  catch _ => return []

def namesIn (l : Location) : IO (List String) := do
  try
    return (← ((← IO.currentDir) / spelled l).readDir).toList.map (·.fileName)
  catch _ => return []

/-- Loads the notebooks below a directory. -/
partial def loadBelow (t : FileTree) (l : Location) : IO FileTree := do
  let mut t := t
  for name in ← namesIn l do
    let inner := l ++ [name]
    match ← kindAt inner with
    | some .dir => t ← loadBelow (t.put inner .directory) inner
    | some .file => if isNotebookName name then t := t.put inner (.file (← contentAt inner))
    | _ => pure ()
  return t

/-- Loads what a path leads through, from a location along the pieces that are left. -/
partial def loadAlong (t : FileTree) (l : Location) : List String → IO FileTree
  | [] => do
    match ← kindAt l with
    | some .dir => loadBelow (t.put l .directory) l
    | _ => return t
  | piece :: pieces => do
    if piece = "" ∨ piece = "." then loadAlong t l pieces
    else if piece = ".." then loadAlong t l.dropLast pieces
    else
      let inner := l ++ [piece]
      match ← kindAt inner with
      | some .dir => loadAlong (t.put inner .directory) inner pieces
      | some .symlink => do
        try
          let target := (← IO.FS.realPath (spelled inner)).toString
          loadAlong (t.put inner (.link ⟨target⟩)) [] (locationOf target ++ pieces)
        catch _ => return t
      | some _ => return t.put inner (.file (← contentAt inner))
      | none => return t

def ancestorsOf (l : Location) : List Location := (List.range l.length).map fun n => l.take (n + 1)

def load (current : Location) (paths : List Path) : IO FileTree := do
  let start : FileTree :=
    { nodes := (ancestorsOf current).map fun l => (l, .directory), current := current }
  paths.foldlM (fun t p =>
    loadAlong t (if p.text.toList.head? = some '/' then [] else current) p.pieces) start

partial def readAll (input : IO.FS.Stream) (sofar : ByteArray) : IO ByteArray := do
  let chunk ← input.read 65536
  if chunk.isEmpty then return sofar else readAll input (sofar ++ chunk)

def readsStandardInput (r : Request) : Bool := r.verb.takesPaths && r.paths.isEmpty

def store (t : FileTree) (l : Location) : IO Unit :=
  match t.get? l with
  | some (.file content) => IO.FS.writeBinFile (spelled l) ⟨content.toArray⟩
  | _ => return

def usage : String :=
  "Usage: nb-clean [-v]... <check|clean|add-filter|remove-filter|version> [OPTIONS] [PATH]...\n"

def execute (args : List String) : IO UInt32 := do
  let current := locationOf (← IO.currentDir).toString
  let request? := (parse args).toOption
  let tree ← load current ((request?.map (·.paths)).getD [])
  let input ←
    if (request?.map readsStandardInput).getD false then readAll (← IO.getStdin) .empty
    else pure .empty
  let output ← IO.getStdout
  let errors ← IO.getStderr
  let world : World := ⟨⟨input.data.toList, tree⟩, .missing, ← output.isTty⟩
  let outcome := world.run args
  for l in outcome.tree.written do store outcome.tree l
  match outcome.printed with
  | some (stdout, stderr) =>
    output.putStr stdout
    errors.putStr stderr
  | none => (if outcome.exit = 0 then output else errors).putStr usage
  return UInt32.ofNat outcome.exit

end NotebookCleaning.Program

def main (args : List String) : IO UInt32 := NotebookCleaning.Program.execute args
