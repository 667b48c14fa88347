import NotebookCleaning.Files.Path
import NotebookCleaning.Text.Utf8

/-!
# File trees

A file tree holds files, directories and symbolic links at locations: lists of names that lead from
the root to a node. `FileTree.find` follows a path from the current directory to a node, through the
links on its way, and `read`, `write` and `makeDirectories` act on what a path leads to. The tree
records the locations of the files that have been written.
-/

namespace NotebookCleaning

abbrev Location := List String

inductive Node where
  | file (content : List UInt8)
  | directory
  | link (target : Path)
  deriving DecidableEq

inductive FileError where
  | notFound
  | alreadyThere
  | notDirectory
  | isDirectory
  | nameTooLong
  | tooManyLinks
  | nulInPath
  | notText
  deriving DecidableEq

def FileError.message : FileError → String
  | notFound => "No such file or directory (os error 2)"
  | alreadyThere => "File exists (os error 17)"
  | notDirectory => "Not a directory (os error 20)"
  | isDirectory => "Is a directory (os error 21)"
  | nameTooLong => "File name too long (os error 36)"
  | tooManyLinks => "Too many levels of symbolic links (os error 40)"
  | nulInPath => "file name contained an unexpected NUL byte"
  | notText => "stream did not contain valid UTF-8"

structure FileTree where
  nodes : List (Location × Node)
  current : Location
  written : List Location := []

namespace FileTree

/-- The node at a location. The root is a directory. -/
def get? (t : FileTree) : Location → Option Node
  | [] => some .directory
  | l => t.nodes.lookup l

def putNode (l : Location) (n : Node) : List (Location × Node) → List (Location × Node)
  | [] => [(l, n)]
  | e :: es => if e.1 = l then (l, n) :: es else e :: putNode l n es

def put (t : FileTree) (l : Location) (n : Node) : FileTree :=
  { t with nodes := putNode l n t.nodes }

inductive Found where
  | node (l : Location) (n : Node)
  /-- Nothing has the last name of the path, in a directory that exists. -/
  | missing (l : Location)
  | failed (e : FileError)

inductive Purpose where
  | target
  /-- What has its last name, even if that is a link. -/
  | entry
  /-- A file to write, which is made if it is missing. No slash may come after its name. -/
  | file
  deriving DecidableEq

def maxNameLength : Nat := 255

def maxPathLength : Nat := 4095

def maxLinks : Nat := 40

/-- Walks along pieces of a path. `follow` goes on after a link: from a location along the pieces of
its target and those that are left. The last name is the one that only slashes come after. -/
def walkPieces (t : FileTree) (purpose : Purpose) (follow : Location → List String → Found)
    (l : Location) : List String → Found
  | [] =>
    match t.get? l with
    | some n => .node l n
    | none => .failed .notFound
  | piece :: pieces =>
    if t.get? l ≠ some .directory then .failed .notDirectory
    else if piece = "" ∨ piece = "." then walkPieces t purpose follow l pieces
    else if piece = ".." then walkPieces t purpose follow l.dropLast pieces
    else
      let last := pieces.all fun piece => piece = ""
      if purpose = .file && last && !pieces.isEmpty then .failed .isDirectory
      else if piece.utf8ByteSize > maxNameLength then .failed .nameTooLong
      else
        match t.get? (l ++ [piece]) with
        | none => if last then .missing (l ++ [piece]) else .failed .notFound
        | some (.link target) =>
          if last && purpose = .entry then .node (l ++ [piece]) (.link target)
          else if target.text.toList.head? = some '/' then follow [] (target.pieces ++ pieces)
          else follow l (target.pieces ++ pieces)
        | some _ => walkPieces t purpose follow (l ++ [piece]) pieces

def walk (t : FileTree) (purpose : Purpose) : Nat → Location → List String → Found
  | 0 => walkPieces t purpose fun _ _ => .failed .tooManyLinks
  | links + 1 => walkPieces t purpose (walk t purpose links)

def isTooLong (p : Path) : Bool := p.text.utf8ByteSize > maxPathLength

def findFor (t : FileTree) (purpose : Purpose) (p : Path) : Found :=
  if p.text.toList.contains '\x00' then .failed .nulInPath
  else if isTooLong p then .failed .nameTooLong
  else if p.text = "" then .failed .notFound
  else walk t purpose maxLinks (if p.text.toList.head? = some '/' then [] else t.current) p.pieces

def find (t : FileTree) (p : Path) : Found := t.findFor .target p

def isDirectory (t : FileTree) (p : Path) : Bool :=
  match t.find p with
  | .node _ .directory => true
  | _ => false

def isFile (t : FileTree) (p : Path) : Bool :=
  match t.find p with
  | .node _ (.file _) => true
  | _ => false

def read (t : FileTree) (p : Path) : Except FileError (List UInt8) :=
  match t.find p with
  | .node _ (.file content) => .ok content
  | .node _ _ => .error .isDirectory
  | .missing _ => .error .notFound
  | .failed e => .error e

def readText (t : FileTree) (p : Path) : Except FileError String :=
  match t.read p with
  | .error e => .error e
  | .ok content =>
    match Utf8.decode? content with
    | some s => .ok s
    | none => .error .notText

def writeAt (t : FileTree) (l : Location) (content : List UInt8) : FileTree :=
  { t.put l (.file content) with written := t.written ++ [l] }

/-- Replaces the content of a file, or makes a file where the last name of the path is free. -/
def write (t : FileTree) (p : Path) (content : List UInt8) : Except FileError FileTree :=
  match t.findFor .file p with
  | .node l (.file _) => .ok (t.writeAt l content)
  | .node _ _ => .error .isDirectory
  | .missing l => .ok (t.writeAt l content)
  | .failed e => .error e

def makeDirectory (t : FileTree) (p : Path) : Except FileError FileTree :=
  match t.findFor .entry p with
  | .node _ _ => .error .alreadyThere
  | .missing l => .ok (t.put l .directory)
  | .failed e => .error e

/-- The longer and longer paths that lead to a path, from its first piece to itself. -/
def ancestors (p : Path) : List Path :=
  let pieces := p.pieces
  (List.range pieces.length).map fun i =>
    ⟨"/".intercalate (pieces.take (i + 1))⟩

/-- Makes a directory and, if the directory that should hold it is missing, that one first. The
paths are given from the innermost to the outermost. -/
def makeChain (t : FileTree) : List Path → Except FileError FileTree
  | [] => .ok t
  | p :: ps =>
    let settle (t : FileTree) (r : Except FileError FileTree) : Except FileError FileTree :=
      match r with
      | .ok t => .ok t
      | .error e => if t.isDirectory p then .ok t else .error e
    match t.makeDirectory p with
    | .error .notFound =>
      match makeChain t ps with
      | .ok t => settle t (t.makeDirectory p)
      | .error e => .error e
    | r => settle t r

def makeDirectories (t : FileTree) (p : Path) : Except FileError FileTree :=
  makeChain t ((ancestors p).reverse.filter fun q => q.text ≠ "")

def below? (l m : Location) : Option (List String) :=
  if l.isPrefixOf m && l.length < m.length then some (m.drop l.length) else none

/-- The names that lead down to the notebooks below a location. Links are neither listed nor
followed. -/
def notebooksBelow (t : FileTree) (l : Location) : List (List String) :=
  t.nodes.filterMap fun e =>
    match e.2, below? l e.1 with
    | .file _, some names => if isNotebookName (names.getLast?.getD "") then some names else none
    | _, _ => none

def joinNames (p : Path) (names : List String) : Path :=
  if names.isEmpty then p else p.join ("/".intercalate names)

/-- The paths of the notebooks below a directory. Where a path gets too long no directory is
entered. -/
def notebooksUnder (t : FileTree) (p : Path) : List Path :=
  match t.find p with
  | .node l .directory =>
    ((t.notebooksBelow l).filter fun names => !isTooLong (joinNames p names.dropLast)).map
      (joinNames p)
  | _ => []

def changes (before t : FileTree) : List (Location × List UInt8) :=
  t.nodes.filterMap fun e =>
    match e.2 with
    | .file content => if before.get? e.1 = some (.file content) then none else some (e.1, content)
    | _ => none

end FileTree

end NotebookCleaning
