import NotebookCleaning.Command.Clean

/-!
# Lines that commands print

A log line and the line of an error are said here by their texts, with and without colour. Colour
stands around parts of a line in which nothing resets it (`paint_eq_coloured`). The reason of an
error is never cut at its end, since it ends in a character that is not blank (`solid_explain`).
-/

namespace NotebookCleaning

theorem isDigit_of_mem_repr {n : Nat} : ∀ c ∈ n.repr.toList, c.isDigit = true := by
  intro c hc
  rw [Nat.toList_repr] at hc
  exact Nat.isDigit_of_mem_toDigits (by decide) (by decide) hc

namespace Blank

variable {s t : String}

/-- The text ends in a character that is not blank. -/
def Solid (s : String) : Prop := s.toList.getLast?.map isBlankChar = some false

instance (s : String) : Decidable (Solid s) := inferInstanceAs (Decidable (_ = some false))

theorem Solid.trimEnd_eq (h : Solid s) : trimEnd s = s := by
  obtain ⟨c, hc, hblank⟩ := Option.map_eq_some_iff.mp h
  obtain ⟨cs, hcs⟩ := List.getLast?_eq_some_iff.mp hc
  rw [trimEnd, dropEnd, hcs, List.reverse_concat, List.dropWhile_cons_of_neg (by simp [hblank]),
    ← List.reverse_concat, List.reverse_reverse, ← hcs, String.ofList_toList]

theorem Solid.append (h : Solid t) (s : String) : Solid (s ++ t) := by
  obtain ⟨c, hc, hblank⟩ := Option.map_eq_some_iff.mp h
  obtain ⟨cs, hcs⟩ := List.getLast?_eq_some_iff.mp hc
  rw [Solid, String.toList_append, hcs, ← List.append_assoc, List.getLast?_concat, Option.map_some,
    hblank]

theorem isBlankChar_of_isDigit {c : Char} (h : c.isDigit = true) : isBlankChar c = false := by
  obtain ⟨hlow, hhigh⟩ : 48 ≤ c.toNat ∧ c.toNat ≤ 57 := by
    simpa [Char.isDigit, UInt32.le_iff_toNat_le] using h
  simp only [isBlankChar, ranges, List.any_cons, List.any_nil, Bool.or_false, Bool.or_eq_false_iff,
    Bool.and_eq_false_iff, decide_eq_false_iff_not]
  omega

theorem solid_repr (n : Nat) : Solid n.repr := by
  have hdigits : n.repr.toList ≠ [] := by simp [Nat.toList_repr]
  rw [Solid, List.getLast?_eq_some_getLast hdigits, Option.map_some,
    isBlankChar_of_isDigit (isDigit_of_mem_repr _ (List.getLast_mem hdigits))]

end Blank

section Reasons

open Blank

theorem mapError_eq_error_iff {ε ε' α : Type} {f : ε → ε'} {x : Except ε α} {e : ε'} :
    x.mapError f = .error e ↔ ∃ cause, x = .error cause ∧ f cause = e := by
  cases x with
  | error cause =>
    refine ⟨fun h => ⟨cause, rfl, Except.error.inj h⟩, ?_⟩
    rintro ⟨_, ⟨⟩, rfl⟩
    rfl
  | ok a =>
    constructor
    · intro h
      cases h
    · rintro ⟨_, ⟨⟩, -⟩

theorem solid_position (p : Json.Position) : Solid p.text := by
  have htext : p.text = " at line " ++ p.line.repr ++ " column " ++ p.column.repr := rfl
  rw [htext]
  exact (solid_repr _).append _

theorem FileError.solid_message (e : FileError) : Solid e.message := by
  cases e <;> decide

theorem Malformed.solid_message (e : Malformed) : Solid e.message := by
  have hkind (k : Json.Kind) : Solid (kindText k) := by cases k <;> decide
  have hobject : Solid " is not a JSON object" := by decide
  cases e with
  | notObject found => exact (hkind found).append _
  | noCells => decide
  | cellsNotArray found => exact (hkind found).append _
  | cellNotObject index => exact hobject.append _
  | metadataNotObject found => exact (hkind found).append _

/-- A mistake in a text is reported with its position behind it. -/
theorem Json.Reader.solid_message {α : Type} {read : Nat → List UInt8 → Read α} {bs : List UInt8}
    {e : Json.Error} (h : whole read bs = .error e) : Solid e.message := by
  unfold whole at h
  split at h
  · next fault _ =>
    cases h
    cases fault <;> exact (solid_position _).append _
  · cases h

theorem solid_chain {bs : List UInt8} {e : Error} (h : Notebook.ofOctets? bs = .error e) :
    Solid e.chain := by
  unfold Notebook.ofOctets? at h
  split at h
  · next cause hparse =>
    cases h
    exact (Json.Reader.solid_message hparse).append _
  · obtain ⟨cause, -, rfl⟩ := mapError_eq_error_iff.mp h
    exact (Malformed.solid_message cause).append _

/-- The reason for which an input gives no notebook ends in a character that is not blank. -/
theorem solid_explain {s : Sources} {i : Input} {e : InputError} (h : i.notebook s = .error e) :
    Solid (i.explain e) := by
  unfold Input.notebook at h
  split at h
  · next cause _ =>
    cases h
    exact (FileError.solid_message cause).append _
  · obtain ⟨cause, hcause, rfl⟩ := mapError_eq_error_iff.mp h
    exact solid_chain hcause

end Reasons

namespace Command

variable {v : Voice} {attributes text : String}

theorem restart_eq_self {set cs : List Char} (h : '\x1b' ∉ cs) : Voice.restart set cs = cs := by
  induction cs with
  | nil => rfl
  | cons c cs ih =>
    obtain ⟨hc, hcs⟩ := not_or.mp (mt List.mem_cons.mpr h)
    unfold Voice.restart
    split
    · next heq => exact absurd (List.cons.inj heq).1.symm hc
    · next heq =>
      cases heq
      rw [ih hcs]
    · next heq => cases heq

/-- A text in which nothing resets the attributes of the terminal, between those it is given and
their reset. -/
def coloured (color : Bool) (attributes text : String) : String :=
  if color then "\x1b[" ++ attributes ++ "m" ++ text ++ "\x1b[0m" else text

theorem paint_eq_coloured (v : Voice) (attributes : String) (h : '\x1b' ∉ text.toList) :
    v.paint attributes text = coloured v.color attributes text := by
  rw [Voice.paint, coloured, restart_eq_self h, String.ofList_toList]

/-- The line that reports an error. -/
def errorText (color : Bool) (name reason : String) : String :=
  coloured color "1;31" "nb-clean: error:" ++ " " ++ name ++ ": " ++ reason ++ "\n"

theorem errorLine_eq (v : Voice) (name : String) {reason : String} (h : Blank.Solid reason) :
    errorLine v (name ++ ": " ++ reason) = errorText v.color name reason := by
  rw [errorLine, errorText, (h.append _).trimEnd_eq, paint_eq_coloured v _ (by decide)]
  simp only [String.append_assoc]

/-- The line of an event, if its level is shown. -/
def logText (v : Voice) (e : Event) : String :=
  match e.level with
  | .warn => body "33" " WARN"
  | .info => if 1 ≤ v.verbosity then body "32" " INFO" else ""
  | .debug => if 2 ≤ v.verbosity then body "34" "DEBUG" else ""
where
  body (attributes level : String) : String :=
    coloured v.color attributes level ++ " " ++ e.message ++
      String.join (e.values.map fun value =>
        " " ++ coloured v.color "3" value.1 ++ coloured v.color "2" "=" ++ value.2) ++ "\n"

theorem line_eq_logText (v : Voice) {e : Event} (h : ∀ value ∈ e.values, '\x1b' ∉ value.1.toList) :
    e.line v = logText v e := by
  have hvalues : e.values.map (Event.valueText v) = e.values.map fun value =>
      " " ++ coloured v.color "3" value.1 ++ coloured v.color "2" "=" ++ value.2 := by
    refine List.map_congr_left fun value hvalue => ?_
    rw [Event.valueText, paint_eq_coloured v _ (h value hvalue), paint_eq_coloured v _ (by decide)]
  have hlevel : v.paint e.level.attributes e.level.text =
      coloured v.color e.level.attributes e.level.text :=
    paint_eq_coloured v _ (by cases e.level <;> decide)
  rw [Event.line, hlevel, hvalues, logText]
  cases e.level with
  | warn => exact if_pos (Nat.zero_le _)
  | info => rfl
  | debug => rfl

/-- Without more verbosity only warnings are shown. -/
theorem logText_eq_empty (hv : v.verbosity = 0) {e : Event} (h : e.level ≠ .warn) :
    logText v e = "" := by
  rw [logText, hv]
  cases hlevel : e.level with
  | warn => exact absurd hlevel h
  | info => rfl
  | debug => rfl

end Command

end NotebookCleaning
