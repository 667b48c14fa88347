import NotebookCleaning.Error
import NotebookCleaning.Json.Printer
import NotebookCleaning.Json.Reader

/-!
# Notebooks as text

`Notebook.ofOctets?` reads a notebook and `Notebook.text` writes it, indented by one space and ended
by a line feed. `Notebook.writeTo` writes to a place that takes only so many octets.
-/

namespace NotebookCleaning.Notebook

def ofOctets? (bs : List UInt8) : Except Error Notebook :=
  match Json.parse bs with
  | .error e => .error (.json e)
  | .ok v => (ofJson? v).mapError .malformed

def ofText? (s : String) : Except Error Notebook := ofOctets? (Utf8.encode s)

def text (nb : Notebook) : String := nb.toJson.render 1 ++ "\n"

/-- Writes to a place that takes `room` octets: what has been written, and the error if that is not
everything. -/
def writeTo (room : Nat) (nb : Notebook) : List UInt8 × Option Error :=
  let octets := Utf8.encode nb.text
  let error? :=
    if octets.length ≤ room then none
    else if octets.length = room + 1 then some .unfinishedLine
    else some (.json .writing)
  (octets.take room, error?)

end NotebookCleaning.Notebook
