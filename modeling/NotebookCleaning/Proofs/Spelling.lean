import NotebookCleaning.Proofs.Legible

/-!
# Values with their numbers as spelled

A value whose numbers have any spelling stands for a text; what a reader makes of the text is the
value with its numbers as they are stored (`Json.stored`). This changes no key, no order and no
other value, so a spelled value that is legible is stored as it is (`stored_of_legible`), and a
spelled value is legible just if its numbers are numerals (`legible_iff_spelled`).
-/

namespace NotebookCleaning

namespace Json

open Object Reader

mutual

/-- The texts of the numbers in a value, in order. -/
def numbers : Json → List String
  | .num text => [text]
  | .arr items => numbersItems items
  | .obj entries => numbersEntries entries
  | _ => []

def numbersItems : List Json → List String
  | [] => []
  | v :: vs => numbers v ++ numbersItems vs

def numbersEntries : List (String × Json) → List String
  | [] => []
  | (_, v) :: es => numbers v ++ numbersEntries es

end

mutual

/-- A value with its numbers as they are stored. -/
def stored : Json → Json
  | .num text => .num (storedSpelling text)
  | .arr items => .arr (storedItems items)
  | .obj entries => .obj (storedEntries entries)
  | v => v

def storedItems : List Json → List Json
  | [] => []
  | v :: vs => stored v :: storedItems vs

def storedEntries : List (String × Json) → List (String × Json)
  | [] => []
  | (k, v) :: es => (k, stored v) :: storedEntries es

end

/-- The values that a text with at most `depth` open brackets at a time can spell, if it repeats no
key in an object and begins no object with `numberKey`. -/
inductive Spelled : Nat → Json → Prop where
  | null {depth : Nat} : Spelled depth .null
  | bool {depth : Nat} (b : Bool) : Spelled depth (.bool b)
  | num {depth : Nat} {text : String} : NumberText text → Spelled depth (.num text)
  | str {depth : Nat} (s : String) : Spelled depth (.str s)
  | arr {depth : Nat} {items : List Json} : (∀ v ∈ items, Spelled depth v) →
    Spelled (depth + 1) (.arr items)
  | obj {depth : Nat} {o : Object} : (keys o).Nodup → (keys o).head? ≠ some numberKey →
    (∀ e ∈ o, Spelled depth e.2) → Spelled (depth + 1) (.obj o)

variable {depth : Nat} {v : Json}

theorem forall_mem_numbers_arr {P : String → Prop} {items : List Json} :
    (∀ text ∈ numbers (.arr items), P text) ↔ ∀ v ∈ items, ∀ text ∈ v.numbers, P text := by
  rw [numbers]
  induction items with
  | nil => simp [numbersItems]
  | cons v vs ih => rw [numbersItems, List.forall_mem_append, ih, List.forall_mem_cons]

theorem forall_mem_numbers_obj {P : String → Prop} {o : Object} :
    (∀ text ∈ numbers (.obj o), P text) ↔ ∀ e ∈ o, ∀ text ∈ e.2.numbers, P text := by
  rw [numbers]
  induction o with
  | nil => simp [numbersEntries]
  | cons e es ih => rw [numbersEntries, List.forall_mem_append, ih, List.forall_mem_cons]

theorem storedItems_eq_map (items : List Json) : storedItems items = items.map stored := by
  induction items with
  | nil => rfl
  | cons v vs ih => rw [storedItems, ih, List.map_cons]

theorem storedEntries_eq_map (o : Object) :
    storedEntries o = o.map fun e => (e.1, e.2.stored) := by
  induction o with
  | nil => rfl
  | cons e es ih => rw [storedEntries, ih, List.map_cons]

theorem get?_storedEntries (o : Object) (key : String) :
    get? (storedEntries o) key = (get? o key).map stored := by
  induction o with
  | nil => rfl
  | cons e es ih =>
    rw [storedEntries, get?_cons, get?_cons, ih]
    split <;> rfl

/-- A value is legible just if it is spelled and its numbers are stored as they are spelled. -/
theorem legible_iff_spelled :
    Legible depth v ↔ Spelled depth v ∧ ∀ text ∈ v.numbers, Numeral text := by
  constructor
  · intro h
    induction h with
    | null => exact ⟨.null, by simp [numbers]⟩
    | bool b => exact ⟨.bool b, by simp [numbers]⟩
    | num hnum => exact ⟨.num hnum.numberText, by simpa [numbers] using hnum⟩
    | str s => exact ⟨.str s, by simp [numbers]⟩
    | arr _ ih =>
      exact ⟨.arr fun v hv => (ih v hv).1, forall_mem_numbers_arr.mpr fun v hv => (ih v hv).2⟩
    | obj hkeys hhead _ ih =>
      exact ⟨.obj hkeys hhead fun e he => (ih e he).1,
        forall_mem_numbers_obj.mpr fun e he => (ih e he).2⟩
  · rintro ⟨h, hnumbers⟩
    induction h with
    | null => exact .null
    | bool b => exact .bool b
    | num _ => exact .num (hnumbers _ List.mem_cons_self)
    | str s => exact .str s
    | arr _ ih =>
      rw [forall_mem_numbers_arr] at hnumbers
      exact .arr fun v hv => ih v hv (hnumbers v hv)
    | obj hkeys hhead _ ih =>
      rw [forall_mem_numbers_obj] at hnumbers
      exact .obj hkeys hhead fun e he => ih e he (hnumbers e he)

theorem stored_of_legible (h : Legible depth v) : v.stored = v := by
  induction h with
  | num hnum => rw [stored, storedSpelling_of_numeral hnum]
  | arr _ ih =>
    rw [stored, storedItems_eq_map, List.map_congr_left ih, List.map_id']
  | @obj _ o _ _ _ ih =>
    have hentry : ∀ e ∈ o, (e.1, e.2.stored) = e := fun e he => Prod.ext rfl (ih e he)
    rw [stored, storedEntries_eq_map, List.map_congr_left hentry, List.map_id']
  | _ => rfl

end Json

end NotebookCleaning
