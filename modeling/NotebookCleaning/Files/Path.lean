import NotebookCleaning.Text.Line

/-!
# Paths

A path is a text; its components are what stands between slashes. Repeated slashes, slashes at the
end and dots after the first component make no component. `Path.order` compares paths component by
component, so two spellings of the same components are equal in it.
-/

namespace NotebookCleaning

structure Path where
  text : String
  deriving DecidableEq

namespace Path

inductive Component where
  | root
  | here
  | up
  | name (s : String)
  deriving DecidableEq

namespace Component

def rank : Component → Nat
  | root => 0
  | here => 1
  | up => 2
  | name _ => 3

def label : Component → String
  | name s => s
  | _ => ""

/-- Names are compared by their code points, which is how their octets compare. -/
def order (a b : Component) : Ordering := (compare a.rank b.rank).then (compare a.label b.label)

end Component

def pieces (p : Path) : List String := (Line.split '/' p.text.toList).map String.ofList

def component? : String → Option Component
  | "" => none
  | "." => none
  | ".." => some .up
  | s => some (.name s)

/-- The component that only a first piece makes. -/
def first? : String → Option Component
  | "" => some .root
  | "." => some .here
  | s => component? s

def components (p : Path) : List Component :=
  match p.pieces with
  | [] => []
  | [""] => []
  | s :: ss => (first? s).toList ++ ss.filterMap component?

def order (p q : Path) : Ordering := List.compareLex Component.order p.components q.components

/-- The path with one more piece behind it. No slash is doubled, and none is put at the front. -/
def join (p : Path) (piece : String) : Path :=
  if p.text = "" ∨ p.text.toList.getLast? = some '/' then ⟨p.text ++ piece⟩
  else ⟨p.text ++ "/" ++ piece⟩

def place (p : Path) : List Path → List Path
  | [] => [p]
  | q :: qs =>
    match p.order q with
    | .lt => p :: q :: qs
    | .eq => q :: qs
    | .gt => q :: place p qs

/-- The paths in ascending order, each in the spelling that came first. -/
def ascending (ps : List Path) : List Path := ps.foldl (fun qs p => place p qs) []

end Path

def isNotebookName (name : String) : Bool :=
  ".ipynb".toList.isSuffixOf name.toList && name.toList.length > 6

end NotebookCleaning
