import NotebookCleaning.Text.Blank

/-!
# Log lines

A log line has a level, a message and named values. How many levels are shown depends on the
verbosity. Colour is put around the parts of a line and never changes them.
-/

namespace NotebookCleaning.Command

/-- How a command talks: how many times more was asked for, and whether it uses colour. -/
structure Voice where
  verbosity : Nat
  color : Bool

namespace Voice

/-- Sets the attributes again wherever a text resets them. -/
def restart (set : List Char) : List Char → List Char
  | '\x1b' :: '[' :: '0' :: 'm' :: cs => ['\x1b', '[', '0', 'm'] ++ set ++ restart set cs
  | c :: cs => c :: restart set cs
  | [] => []

def paint (v : Voice) (attributes text : String) : String :=
  let set := "\x1b[" ++ attributes ++ "m"
  if v.color then set ++ String.ofList (restart set.toList text.toList) ++ "\x1b[0m" else text

end Voice

inductive Level where
  | warn
  | info
  | debug
  deriving DecidableEq

namespace Level

def threshold : Level → Nat
  | warn => 0
  | info => 1
  | debug => 2

def text : Level → String
  | warn => " WARN"
  | info => " INFO"
  | debug => "DEBUG"

def attributes : Level → String
  | warn => "33"
  | info => "32"
  | debug => "34"

end Level

structure Event where
  level : Level
  message : String
  values : List (String × String) := []

namespace Event

def valueText (v : Voice) (value : String × String) : String :=
  " " ++ v.paint "3" value.1 ++ v.paint "2" "=" ++ value.2

def line (v : Voice) (e : Event) : String :=
  if e.level.threshold ≤ v.verbosity then
    v.paint e.level.attributes e.level.text ++ " " ++ e.message ++
      String.join (e.values.map (valueText v)) ++ "\n"
  else ""

end Event

/-- A line that reports an error. Blank characters at its end are dropped. -/
def errorLine (v : Voice) (message : String) : String :=
  v.paint "1;31" "nb-clean: error:" ++ " " ++ Blank.trimEnd message ++ "\n"

end NotebookCleaning.Command
