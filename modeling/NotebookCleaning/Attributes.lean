import NotebookCleaning.Text.Line

/-!
# The attributes file

One line of the attributes file routes notebooks through the filter. `add` appends that line unless
some line of the file already reads so; `remove` takes out every such line and keeps all others.
-/

namespace NotebookCleaning.Attributes

def filterLine : String := "*.ipynb filter=nb-clean"

def isPresent (text : String) : Bool := (Line.lines text.toList).contains filterLine.toList

/-- The text with the line, or nothing if the line is there. -/
def add (text : String) : Option String :=
  if isPresent text then none else some (text ++ "\n" ++ filterLine ++ "\n")

def remove (text : String) : String :=
  String.ofList
    (Line.join '\n' ((Line.split '\n' text.toList).filter fun l => l ≠ filterLine.toList))

end NotebookCleaning.Attributes
