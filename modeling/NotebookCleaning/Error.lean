import NotebookCleaning.Json.Error
import NotebookCleaning.Notebook.Basic
import NotebookCleaning.Config.Basic

/-!
# Errors

The causes for which a notebook cannot be read, cleaned, checked or written.
-/

namespace NotebookCleaning

inductive Error where
  | conflict
  | malformed (cause : Malformed)
  | json (cause : Json.Error)
  /-- The writer took the document but not the line feed after it. -/
  | unfinishedLine

namespace Error

def conflictText : String :=
  "`preserve_notebook_metadata` and `remove_all_notebook_metadata` cannot both be set"

def message : Error → String
  | conflict => "invalid argument: " ++ conflictText
  | malformed cause => "malformed notebook: " ++ cause.message
  | json cause => "invalid JSON: " ++ cause.message
  | unfinishedLine => "I/O error: failed to write whole buffer"

/-- The message with the messages of its causes behind it. Only a JSON error has a further cause,
whose message it repeats. -/
def chain : Error → String
  | json cause => "invalid JSON: " ++ cause.message ++ ": " ++ cause.message
  | e => e.message

end Error

namespace Config

variable {α : Type} {c : Config} {f : Config → α} {a : α}

def validate (c : Config) : Except Error Config := if c.Valid then .ok c else .error .conflict

theorem validate_of_valid (hc : c.Valid) : c.validate = .ok c := if_pos hc

theorem validate_of_not_valid (hc : ¬c.Valid) : c.validate = .error .conflict := if_neg hc

theorem map_validate_of_valid (hc : c.Valid) (f : Config → α) : c.validate.map f = .ok (f c) := by
  rw [validate_of_valid hc]
  rfl

theorem map_validate_of_not_valid (hc : ¬c.Valid) (f : Config → α) :
    c.validate.map f = .error .conflict := by
  rw [validate_of_not_valid hc]
  rfl

theorem map_validate_eq_ok_iff : c.validate.map f = .ok a ↔ c.Valid ∧ f c = a := by
  by_cases hc : c.Valid
  · simp [map_validate_of_valid hc, hc]
  · simp [map_validate_of_not_valid hc, hc]

/-- The shell command that cleans with a configuration, if the configuration is valid. -/
def filterCommand? (c : Config) : Except Error String := c.validate.map filterCommand

end Config

end NotebookCleaning
