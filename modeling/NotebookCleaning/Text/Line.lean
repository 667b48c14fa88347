/-!
# Lines of a text

`split` cuts a text at every occurrence of a character and keeps the empty pieces, so that joining
the pieces gives the text back (`join_split`). `lines` reads a text as lines that end in a line
feed: the end of the text ends the last line, and one carriage return before a line feed is no part
of the line.
-/

namespace NotebookCleaning.Line

/-- The pieces of a text between the occurrences of `sep`, at least one. -/
def split (sep : Char) : List Char → List (List Char)
  | [] => [[]]
  | c :: cs =>
    if c = sep then [] :: split sep cs
    else
      match split sep cs with
      | [] => [[c]]
      | p :: ps => (c :: p) :: ps

def join (sep : Char) : List (List Char) → List Char
  | [] => []
  | [p] => p
  | p :: ps => p ++ sep :: join sep ps

theorem split_ne_nil (sep : Char) (cs : List Char) : split sep cs ≠ [] := by
  cases cs with
  | nil => simp [split]
  | cons c cs =>
    simp only [split]
    split
    · simp
    · split <;> simp

theorem join_cons (sep : Char) (p : List Char) {ps : List (List Char)} (h : ps ≠ []) :
    join sep (p :: ps) = p ++ sep :: join sep ps := by
  cases ps with
  | nil => exact absurd rfl h
  | cons q qs => rfl

theorem join_split (sep : Char) (cs : List Char) : join sep (split sep cs) = cs := by
  induction cs with
  | nil => rfl
  | cons c cs ih =>
    simp only [split]
    split
    · next h => rw [join_cons sep [] (split_ne_nil sep cs), ih, h]; rfl
    · cases hs : split sep cs with
      | nil => exact absurd hs (split_ne_nil sep cs)
      | cons p ps =>
        rw [hs] at ih
        cases ps with
        | nil => simp only [join] at ih ⊢; rw [ih]
        | cons q qs => simp only [join, List.cons_append] at ih ⊢; rw [ih]

def dropReturn (line : List Char) : List Char :=
  if line.getLast? = some '\r' then line.dropLast else line

/-- The lines of a text. A line feed ends a line, so none begins after the last one. A carriage
return is dropped only where a line feed follows it. -/
def lines (cs : List Char) : List (List Char) :=
  let pieces := split '\n' cs
  pieces.dropLast.map dropReturn ++ pieces.getLast?.toList.filter (· ≠ [])

end NotebookCleaning.Line
