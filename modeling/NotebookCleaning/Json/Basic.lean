/-!
# JSON values

A number is kept as its text and is never computed. An object is the list of its entries, in order.
`Object.insert` gives a key its new value where the key stands, or appends the entry, so a repeated
key keeps its first place and takes the last value. `Json.same` compares values up to the order of
the entries of their objects.
-/

namespace NotebookCleaning

inductive Json where
  | null
  | bool (b : Bool)
  | num (text : String)
  | str (s : String)
  | arr (items : List Json)
  | obj (entries : List (String × Json))
  deriving Inhabited

abbrev Object := List (String × Json)

namespace Object

def get? (o : Object) (key : String) : Option Json := o.lookup key

def keys (o : Object) : List String := o.map Prod.fst

def insert (key : String) (v : Json) : Object → Object
  | [] => [(key, v)]
  | (k, w) :: es => if k = key then (key, v) :: es else (k, w) :: insert key v es

/-- Changes the value of a key that is present, in its place. -/
def modify (key : String) (f : Json → Json) (o : Object) : Object :=
  o.map fun e => if e.1 = key then (e.1, f e.2) else e

def erase (key : String) (o : Object) : Object := o.filter fun e => e.1 != key

def restrict (keep : String → Bool) (o : Object) : Object := o.filter fun e => keep e.1

theorem get?_cons (o : Object) (k key : String) (v : Json) :
    get? ((k, v) :: o) key = if key = k then some v else get? o key := by
  by_cases h : key = k
  · subst h; simp [get?]
  · simp [get?, List.lookup_cons, beq_eq_false_iff_ne.mpr h, h]

theorem get?_insert (o : Object) (k key : String) (v : Json) :
    get? (insert k v o) key = if key = k then some v else get? o key := by
  induction o with
  | nil => rw [insert, get?_cons]
  | cons e es ih =>
    obtain ⟨k', w⟩ := e
    by_cases h : k' = k
    · subst h
      simp only [insert, if_true, get?_cons]
      split <;> rfl
    · simp only [insert, if_neg h, get?_cons, ih]
      by_cases hk : key = k'
      · subst hk; rw [if_pos rfl, if_neg h, if_pos rfl]
      · rw [if_neg hk, if_neg hk]

theorem get?_modify (o : Object) (k key : String) (f : Json → Json) :
    get? (modify k f o) key = if key = k then (get? o key).map f else get? o key := by
  induction o with
  | nil => simp [modify, get?]
  | cons e es ih =>
    obtain ⟨k', w⟩ := e
    have hcons : modify k f ((k', w) :: es) =
        (k', if k' = k then f w else w) :: modify k f es := by
      simp only [modify, List.map_cons]; split <;> rfl
    rw [hcons, get?_cons, get?_cons, ih]
    by_cases hk : key = k'
    · subst hk; simp only [if_true, Option.map_some]; split <;> rfl
    · simp only [if_neg hk]

end Object

namespace Json

inductive Kind where
  | null
  | boolean
  | number
  | string
  | array
  | object
  deriving DecidableEq

def kind : Json → Kind
  | .null => .null
  | .bool _ => .boolean
  | .num _ => .number
  | .str _ => .string
  | .arr _ => .array
  | .obj _ => .object

def isNull (v : Json) : Bool := v.kind = .null

def object? : Json → Option Object
  | .obj o => some o
  | _ => none

/-- Applies a change to an object and leaves every other value. -/
def onObject (f : Object → Object) : Json → Json
  | .obj o => .obj (f o)
  | v => v

/-- Applies a change to the items of an array and leaves every other value. -/
def onArray (f : List Json → List Json) : Json → Json
  | .arr items => .arr (f items)
  | v => v

mutual

/-- Equality up to the order of entries. Numbers are compared by their text. -/
def same : Json → Json → Bool
  | .null, .null => true
  | .bool a, .bool b => a == b
  | .num a, .num b => a == b
  | .str a, .str b => a == b
  | .arr xs, .arr ys => sameItems xs ys
  | .obj es, .obj fs => es.length == fs.length && sameEntries es fs
  | _, _ => false

def sameItems : List Json → List Json → Bool
  | [], [] => true
  | x :: xs, y :: ys => same x y && sameItems xs ys
  | _, _ => false

/-- Every entry of the first list has a like entry in the second. -/
def sameEntries : List (String × Json) → List (String × Json) → Bool
  | [], _ => true
  | (k, v) :: es, fs =>
    (match fs.lookup k with
      | some w => same v w
      | none => false) && sameEntries es fs

end

end Json

end NotebookCleaning
