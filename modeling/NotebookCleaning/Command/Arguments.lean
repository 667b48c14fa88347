import NotebookCleaning.Config.Basic
import NotebookCleaning.Files.Path

/-!
# Arguments

The command line names a verb and says with options how to carry it out. An option is written with
one dash and a letter, or with two dashes and a word; letters can stand together behind one dash.
Only the option for cell metadata takes values: all arguments up to the next one that begins with a
dash, or the one value that is attached to it.
-/

namespace NotebookCleaning.Command

inductive Verb where
  | check
  | clean
  | addFilter
  | removeFilter
  | version
  deriving DecidableEq

namespace Verb

def ofName? : String → Option Verb
  | "check" => some check
  | "clean" => some clean
  | "add-filter" => some addFilter
  | "remove-filter" => some removeFilter
  | "version" => some version
  | _ => none

def takesPaths : Verb → Bool
  | check | clean => true
  | _ => false

def takesConfig : Verb → Bool
  | check | clean | addFilter => true
  | _ => false

def takesJson : Verb → Bool
  | check => true
  | _ => false

end Verb

inductive Stop where
  | misuse
  | help
  | version
  deriving DecidableEq

structure Draft where
  verbosity : Nat := 0
  flags : List Config.Flag := []
  json : Bool := false
  fields : Option (List String) := none
  paths : List Path := []

namespace Draft

def config (d : Draft) : Config :=
  d.flags.foldr (fun f c => c.set f true) { cellMetadata := .ofRequest d.fields }

/-- A flag is given at most once. -/
def addFlag (d : Draft) (f : Config.Flag) : Except Stop Draft :=
  if f ∈ d.flags then .error .misuse else .ok { d with flags := f :: d.flags }

def addJson (d : Draft) : Except Stop Draft :=
  if d.json then .error .misuse else .ok { d with json := true }

def addFields (d : Draft) (fs : List String) : Draft :=
  { d with fields := some (d.fields.getD [] ++ fs) }

def addPath (verb : Verb) (d : Draft) (s : String) : Except Stop Draft :=
  if verb.takesPaths && s ≠ "" then .ok { d with paths := d.paths ++ [⟨s⟩] } else .error .misuse

end Draft

inductive Form where
  | divider
  | word (name : List Char) (value : Option (List Char))
  | letters (cs : List Char)
  | plain

namespace Form

/-- A word ends at the first equals sign, behind which its value stands. -/
def ofWord (cs : List Char) : Form :=
  match cs.dropWhile (· ≠ '=') with
  | [] => .word cs none
  | _ :: value => .word (cs.takeWhile (· ≠ '=')) (some value)

def ofArgument (s : String) : Form :=
  match s.toList with
  | ['-', '-'] => divider
  | '-' :: '-' :: cs => ofWord cs
  | '-' :: c :: cs => letters (c :: cs)
  | _ => plain

end Form

def flagOfWord? : String → Option Config.Flag
  | "remove-empty-cells" => some .removeEmptyCells
  | "preserve-cell-outputs" => some .preserveOutputs
  | "preserve-execution-counts" => some .preserveCounts
  | "preserve-notebook-metadata" => some .preserveNotebookMetadata
  | "remove-all-notebook-metadata" => some .removeNotebookMetadata
  | _ => none

def flagOfLetter? : Char → Option Config.Flag
  | 'e' => some .removeEmptyCells
  | 'o' => some .preserveOutputs
  | 'c' => some .preserveCounts
  | 'n' => some .preserveNotebookMetadata
  | 'M' => some .removeNotebookMetadata
  | _ => none

/-- A draft, and whether plain arguments that follow are fields. -/
abbrev Scan := Except Stop (Draft × Bool)

def scanWord (verb : Verb) (d : Draft) (name : String) (value : Option String) : Scan :=
  if name = "preserve-cell-metadata" ∧ verb.takesConfig then
    match value with
    | none => .ok (d.addFields [], true)
    | some v => .ok (d.addFields [v], false)
  else if value.isSome then .error .misuse
  else if name = "verbose" then .ok ({ d with verbosity := d.verbosity + 1 }, false)
  else if name = "help" then .error .help
  else if name = "json" ∧ verb.takesJson then d.addJson.map (·, false)
  else
    match flagOfWord? name with
    | some f => if verb.takesConfig then (d.addFlag f).map (·, false) else .error .misuse
    | none => .error .misuse

/-- The letters behind one dash. What follows the letter for fields is its value. -/
def scanLetters (verb : Verb) (d : Draft) : List Char → Scan
  | [] => .ok (d, false)
  | c :: cs =>
    if c = 'm' ∧ verb.takesConfig then
      match cs with
      | [] => .ok (d.addFields [], true)
      | '=' :: value => .ok (d.addFields [String.ofList value], false)
      | value => .ok (d.addFields [String.ofList value], false)
    else if c = 'v' then scanLetters verb { d with verbosity := d.verbosity + 1 } cs
    else if c = 'h' then .error .help
    else
      match flagOfLetter? c with
      | none => .error .misuse
      | some f =>
        if verb.takesConfig then
          match d.addFlag f with
          | .ok d => scanLetters verb d cs
          | .error stop => .error stop
        else .error .misuse

/-- The arguments of a verb. While `listing` is set, plain arguments are fields. -/
def scan (verb : Verb) (listing : Bool) (d : Draft) : List String → Except Stop Draft
  | [] => .ok d
  | arg :: args =>
    match Form.ofArgument arg with
    | .divider => args.foldlM (Draft.addPath verb) d
    | .word name value => do
      let (d, listing) ← scanWord verb d (String.ofList name) (value.map String.ofList)
      scan verb listing d args
    | .letters cs => do
      let (d, listing) ← scanLetters verb d cs
      scan verb listing d args
    | .plain =>
      if listing then scan verb true (d.addFields [arg]) args
      else do scan verb false (← d.addPath verb arg) args

structure Request where
  verb : Verb
  verbosity : Nat
  config : Config
  json : Bool
  paths : List Path

/-- The request of a verb. Its own verbosity, if it has any, replaces the one before the verb. -/
def request (verbosity : Nat) (verb : Verb) (args : List String) : Except Stop Request := do
  let d ← scan verb false {} args
  return {
    verb := verb
    verbosity := if d.verbosity = 0 then verbosity else d.verbosity
    config := d.config
    json := d.json
    paths := d.paths }

def leadingLetters (verbosity : Nat) : List Char → Except Stop Nat
  | [] => .ok verbosity
  | 'v' :: cs => leadingLetters (verbosity + 1) cs
  | 'V' :: _ => .error .version
  | 'h' :: _ => .error .help
  | _ => .error .misuse

def leadingWord (verbosity : Nat) (name : String) (value : Option (List Char)) :
    Except Stop Nat :=
  if value.isSome then .error .misuse
  else if name = "verbose" then .ok (verbosity + 1)
  else if name = "version" then .error .version
  else if name = "help" then .error .help
  else .error .misuse

/-- The verb for help, which takes at most the name of a verb. -/
def helpStop : List String → Stop
  | [] => .help
  | [name] => if name = "help" ∨ (Verb.ofName? name).isSome then .help else .misuse
  | _ => .misuse

def parseFrom (verbosity : Nat) : List String → Except Stop Request
  | [] => .error .misuse
  | arg :: args =>
    match Form.ofArgument arg with
    | .divider => .error .misuse
    | .word name value => do parseFrom (← leadingWord verbosity (String.ofList name) value) args
    | .letters cs => do parseFrom (← leadingLetters verbosity cs) args
    | .plain =>
      if arg = "help" then .error (helpStop args)
      else
        match Verb.ofName? arg with
        | some verb => request verbosity verb args
        | none => .error .misuse

def parse (args : List String) : Except Stop Request := parseFrom 0 args

end NotebookCleaning.Command
