import NotebookCleaning.Config.Draft
import NotebookCleaning.Json.Skip

/-!
# Configurations from text

A configuration is decoded while its text is read, so the first mistake in the text is the one that
is named, be it one of grammar or of meaning. Unknown keys are passed over.
-/

namespace NotebookCleaning.Config.Reader

open Json (Read Mistake)
open Json.Reader

/-- A mistake of meaning in what has just been read. -/
def checked {α : Type} (r : Except Mistake α) (rest : List UInt8) : Read α :=
  match r with
  | .ok a => .ok (a, rest)
  | .error m => faultAfter m rest

def boolean (limit : Nat) (bs : List UInt8) : Read Bool :=
  match skipSpace bs with
  | 116 :: rest => word [114, 117, 101] true rest
  | 102 :: rest => word [97, 108, 115, 101] false rest
  | bs => refuse limit "a boolean" bs

def text (limit : Nat) (bs : List UInt8) : Read String :=
  match skipSpace bs with
  | 34 :: rest => string limit rest
  | bs => refuse limit "a string" bs

def texts (limit : Nat) (bs : List UInt8) : Read (List String) :=
  match skipSpace bs with
  | 91 :: rest =>
    let item (acc : List String) (bs : List UInt8) : Read (List String) :=
      (text limit bs).andThen fun s rest => .ok (s :: acc, rest)
    (elements item limit true [] rest).andThen fun acc rest => .ok (acc.reverse, rest)
  | bs => refuse limit "a sequence" bs

def null (limit : Nat) (bs : List UInt8) : Read Unit :=
  match skipSpace bs with
  | 110 :: rest => word [117, 108, 108] () rest
  | bs => refuse limit "no fields" bs

def fieldsOf (limit : Nat) (m : Mode) (bs : List UInt8) : Read MetadataPolicy :=
  match m with
  | .strip => (null limit bs).andThen fun _ rest => .ok (.strip, rest)
  | .preserveAll => (null limit bs).andThen fun _ rest => .ok (.preserveAll, rest)
  | .preserve => (texts limit bs).andThen fun fs rest => .ok (.preserve (.ofList fs), rest)

def modeName (limit : Nat) (bs : List UInt8) : Read Mode :=
  (string limit bs).andThen fun name rest => checked (Mode.ofName? name) rest

/-- The mode that is the only key of an object, with null as its value, after the opening brace. -/
def modeKey (limit : Nat) (bs : List UInt8) : Read Mode :=
  match skipSpace bs with
  | [] => faultAt .endOfObject []
  | 34 :: rest =>
    (modeName limit rest).andThen fun m bs =>
    (colon bs).andThen fun _ bs =>
    (null limit bs).andThen fun _ bs =>
    match skipSpace bs with
    | [] => faultAt .endOfObject []
    | 125 :: rest => .ok (m, rest)
    | rest => faultAfter .expectedValue rest
  | bs => faultAt .keyNotString bs

def mode (limit : Nat) (bs : List UInt8) : Read Mode :=
  match skipSpace bs with
  | [] => faultAt .endOfValue []
  | 34 :: rest => modeName limit rest
  | 123 :: rest => modeKey limit rest
  | bs => faultAt .expectedValue bs

/-- Fields that come before their mode are kept as a value, in which no object spells a number. Two
brackets are open around them. -/
def heldFields (limit : Nat) (bs : List UInt8) : Read Json := value false limit (maxDepth - 2) bs

def policyMember (limit : Nat) (d : PolicyDraft) (key : String) (bs : List UInt8) :
    Read PolicyDraft :=
  if key = "mode" then
    match d with
    | .empty | .fields _ =>
      (colon bs).andThen fun _ bs =>
      (mode limit bs).andThen fun m rest => checked (d.addMode m) rest
    | _ => faultAfter (.duplicateField key) bs
  else if key = "fields" then
    match d with
    | .empty =>
      (colon bs).andThen fun _ bs =>
      (heldFields limit bs).andThen fun v rest => checked (d.addFields v) rest
    | .mode m =>
      (colon bs).andThen fun _ bs =>
      (fieldsOf limit m bs).andThen fun p rest => .ok (.full p, rest)
    | _ => faultAfter (.duplicateField key) bs
  else (colon bs).andThen fun _ bs =>
    (Json.Skip.value limit bs).andThen fun _ rest => .ok (d, rest)

def endOfPositions {α : Type} (a : α) (bs : List UInt8) : Read α :=
  match skipSpace bs with
  | [] => faultAt .endOfList []
  | 93 :: rest => .ok (a, rest)
  | 44 :: rest =>
    match skipSpace rest with
    | 93 :: rest => faultAt .trailingComma (93 :: rest)
    | rest => faultAt .trailingCharacters rest
  | rest => faultAt .trailingCharacters rest

/-- The next position of an array that must have one. `given` have come before it. -/
def position (given : Nat) (bs : List UInt8) : Read Unit :=
  (nextElement (given == 0) bs).andThen fun more rest =>
  if more then .ok ((), rest) else faultAfter (.wrongLength given "a mode and fields") rest

def policyPositions (limit : Nat) (bs : List UInt8) : Read MetadataPolicy :=
  (position 0 bs).andThen fun _ bs =>
  (text limit bs).andThen fun name rest =>
  (checked (Mode.ofName? name) rest).andThen fun m bs =>
  (position 1 bs).andThen fun _ bs =>
  (fieldsOf limit m bs).andThen endOfPositions

def policy (limit : Nat) (bs : List UInt8) : Read MetadataPolicy :=
  match skipSpace bs with
  | 91 :: rest => policyPositions limit rest
  | 123 :: rest =>
    (members limit (policyMember limit) limit true .empty rest).andThen fun d rest =>
    checked d.finish rest
  | bs => refuse limit "a policy" bs

def setting (limit : Nat) (s : Setting) (d : ConfigDraft) (bs : List UInt8) : Read ConfigDraft :=
  match s with
  | .flag f => (boolean limit bs).andThen fun b rest => .ok (d.setFlag f b, rest)
  | .policy => (policy limit bs).andThen fun p rest => .ok (d.setPolicy p, rest)

def configMember (limit : Nat) (d : ConfigDraft) (key : String) (bs : List UInt8) :
    Read ConfigDraft :=
  match Setting.ofName? key with
  | some s =>
    (checked (d.note key) bs).andThen fun d bs =>
    (colon bs).andThen fun _ bs => setting limit s d bs
  | none =>
    (colon bs).andThen fun _ bs =>
    (Json.Skip.value limit bs).andThen fun _ rest => .ok (d, rest)

def positions (limit : Nat) :
    List Setting → Bool → ConfigDraft → List UInt8 → Read ConfigDraft
  | [], _, d, bs => endOfPositions d bs
  | s :: ss, first, d, bs =>
    (nextElement first bs).andThen fun more rest =>
    if more then (setting limit s d rest).andThen fun d rest => positions limit ss false d rest
    else .ok (d, rest)

def config (limit : Nat) (bs : List UInt8) : Read Config :=
  let finish (r : Read ConfigDraft) : Read Config := r.andThen fun d rest => .ok (d.config, rest)
  match skipSpace bs with
  | 91 :: rest => finish (positions limit Setting.positional true {} rest)
  | 123 :: rest => finish (members limit (configMember limit) limit true {} rest)
  | bs => refuse limit "a configuration" bs

end NotebookCleaning.Config.Reader

namespace NotebookCleaning.Config

def ofOctets? (bs : List UInt8) : Except Json.Error Config := Json.Reader.whole Reader.config bs

end NotebookCleaning.Config
