import NotebookCleaning.Text.Blank
import NotebookCleaning.Text.Utf8

/-!
# Calls of git

Git is known by its replies: the exit code, if it was not killed, and what it wrote. A call gives
the trimmed output of a reply with code zero, and otherwise fails with the trimmed error output.
-/

namespace NotebookCleaning.Command

structure Reply where
  /-- Nothing if the process was killed. -/
  code : Option Nat := some 0
  stdout : List UInt8 := []
  stderr : List UInt8 := []

inductive Git where
  | missing
  /-- The replies of the calls to come. Where none is left or none is given, the usual one comes. -/
  | present (replies : List (Option Reply))

inductive GitError where
  | missing
  | failed (message : String) (code : Nat)

namespace GitError

def message : GitError → String
  | missing => "failed to run git: No such file or directory (os error 2)"
  | failed message _ => message

def code : GitError → Nat
  | missing => 1
  | failed _ code => code

end GitError

namespace Git

def usualReply (args : List String) : Reply :=
  if args.head? = some "rev-parse" then { stdout := Utf8.encode ".git\n" } else {}

def outcome (r : Reply) : Except GitError String :=
  if r.code = some 0 then .ok (Blank.trim (Utf8.decodeLossy r.stdout))
  else .error (.failed (Blank.trim (Utf8.decodeLossy r.stderr)) (r.code.getD 1))

/-- What a call gives, with the git of the next call. -/
def call (args : List String) : Git → Except GitError String × Git
  | missing => (.error .missing, missing)
  | present [] => (outcome (usualReply args), present [])
  | present (r :: rs) => (outcome (r.getD (usualReply args)), present rs)

def received : Git → List (List String) → List (List String)
  | missing, _ => []
  | present _, calls => calls

end Git

end NotebookCleaning.Command
