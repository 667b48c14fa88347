import NotebookCleaning.Keywords
import NotebookCleaning.Proofs.CheckReport

/-!
# What messages tell

The message of a finding in a cell is an opening that the kind of the finding decides, the index of
the cell in decimal digits, and an ending that begins with no digit. So the message gives the
finding back (`Finding.message_injective`), whatever name a metadata field has, and a list of
messages gives back the list of findings.
-/

namespace NotebookCleaning

namespace CellFinding

/-- What the message says before the index of the cell. -/
def opening : CellFinding → String
  | blank => "empty cell at index "
  | executionCount => "execution count in cell "
  | outputs => "output in cell "
  | outputCount => "output execution count in cell "
  | metadata _ => "metadata in cell "

/-- What the message says behind the index of the cell. -/
def ending : CellFinding → String
  | metadata field => ": " ++ field
  | _ => ""

variable {what what' : CellFinding}

theorem eq_of_opening_eq (hopening : what.opening = what'.opening)
    (hending : what.ending = what'.ending) : what = what' := by
  cases what <;> cases what' <;> simp [opening, ending] at hopening hending ⊢
  exact hending

theorem takeWhile_ending (what : CellFinding) :
    what.ending.toList.takeWhile Char.isDigit = [] := by
  cases what <;> simp [ending]

/-- How many characters tell one opening from another. -/
def markLength : Nat := 8

theorem take_opening_append (what : CellFinding) (rest : List Char) :
    (what.opening.toList ++ rest).take markLength = what.opening.toList.take markLength := by
  have hlength : markLength ≤ what.opening.toList.length := by
    cases what <;> dsimp only [opening] <;> decide
  rw [List.take_append_of_le_length hlength]

theorem opening_eq_of_take_eq
    (h : what.opening.toList.take markLength = what'.opening.toList.take markLength) :
    what.opening = what'.opening := by
  revert h
  cases what <;> cases what' <;> dsimp only [opening] <;> decide

end CellFinding

namespace Finding

open CellFinding

theorem toList_message_inCell (i : Nat) (what : CellFinding) :
    (inCell i what).message.toList =
      what.opening.toList ++ (i.repr.toList ++ what.ending.toList) := by
  have hmessage : (inCell i what).message = what.opening ++ i.repr ++ what.ending := by
    cases what with
    | metadata field => exact String.append_assoc
    | _ => exact String.append_empty.symm
  simp only [hmessage, String.toList_append, List.append_assoc]

theorem eq_of_repr_eq {i i' : Nat} (h : i.repr.toList = i'.repr.toList) : i = i' := by
  rw [Nat.toList_repr, Nat.toList_repr] at h
  calc
    i = Nat.ofDigitChars 10 (Nat.toDigits 10 i) 0 := Nat.ofDigitChars_ten_toDigits.symm
    _ = Nat.ofDigitChars 10 (Nat.toDigits 10 i') 0 := by rw [h]
    _ = i' := Nat.ofDigitChars_ten_toDigits

theorem takeWhile_index (i : Nat) (what : CellFinding) :
    (i.repr.toList ++ what.ending.toList).takeWhile Char.isDigit = i.repr.toList := by
  rw [List.takeWhile_append_of_pos isDigit_of_mem_repr, takeWhile_ending, List.append_nil]

theorem eq_of_message_eq {i i' : Nat} {what what' : CellFinding}
    (h : (inCell i what).message = (inCell i' what').message) : i = i' ∧ what = what' := by
  have hlist := congrArg String.toList h
  rw [toList_message_inCell, toList_message_inCell] at hlist
  have hopening : what.opening = what'.opening := by
    have htake := congrArg (List.take markLength) hlist
    rw [take_opening_append, take_opening_append] at htake
    exact opening_eq_of_take_eq htake
  rw [hopening, List.append_cancel_left_eq] at hlist
  have hindex : i.repr.toList = i'.repr.toList := by
    rw [← takeWhile_index i what, hlist, takeWhile_index]
  rw [hindex, List.append_cancel_left_eq] at hlist
  exact ⟨eq_of_repr_eq hindex, eq_of_opening_eq hopening (String.toList_inj.mp hlist)⟩

/-- The message of a finding in the document is no message of a finding in a cell. -/
theorem message_inCell_ne (i : Nat) (what : CellFinding) :
    (inCell i what).message ≠ notebookMetadata.message ∧
      (inCell i what).message ≠ languageVersion.message := by
  have htake := take_opening_append what (i.repr.toList ++ what.ending.toList)
  rw [← toList_message_inCell] at htake
  constructor
  · intro h
    rw [h] at htake
    revert htake
    cases what <;> dsimp only [opening] <;> decide
  · intro h
    rw [h] at htake
    revert htake
    cases what <;> dsimp only [opening] <;> decide

/-- A message tells the finding: its cell, its kind and the name of its field. -/
theorem message_injective : Function.Injective message := by
  intro f g h
  cases f with
  | inCell i what =>
    cases g with
    | inCell i' what' =>
      obtain ⟨rfl, rfl⟩ := eq_of_message_eq h
      rfl
    | notebookMetadata => exact absurd h (message_inCell_ne i what).1
    | languageVersion => exact absurd h (message_inCell_ne i what).2
  | notebookMetadata =>
    cases g with
    | inCell i what => exact absurd h.symm (message_inCell_ne i what).1
    | notebookMetadata => rfl
    | languageVersion => exact absurd h (by decide)
  | languageVersion =>
    cases g with
    | inCell i what => exact absurd h.symm (message_inCell_ne i what).2
    | notebookMetadata => exact absurd h (by decide)
    | languageVersion => rfl

end Finding

namespace Command

variable {ε : Type}

theorem map_injective_except {α β : Type} {f : α → β} (hf : Function.Injective f) :
    Function.Injective (Except.map f : Except ε α → Except ε β) := by
  intro x y h
  cases x <;> cases y <;> simp only [Except.map, Except.ok.injEq, Except.error.injEq,
    reduceCtorEq] at h ⊢
  · exact h
  · exact hf h

/-- Two findings with one message are one finding, whatever notebooks and configurations they come
from. So neither a call with options nor an entry of the check document, which give messages only,
leaves out anything that the findings tell. -/
theorem findings_of_messages :
    (∀ (c c' : Config) (nb nb' : Notebook) (findings findings' : List Finding),
      nb.check c = .ok findings → nb'.check c' = .ok findings' →
        ∀ f ∈ findings, ∀ f' ∈ findings', f.message = f'.message → f = f') ∧
      (∀ (o o' : Options) (text text' : String),
        (o.check text).map (List.map Finding.message) =
            (o'.check text').map (List.map Finding.message) →
          o.check text = o'.check text') ∧
      ∀ (c c' : Config) (s s' : Sources) (i i' : Input) (nb nb' : Notebook)
        (findings findings' : List Finding),
        i.notebook s = .ok nb → i'.notebook s' = .ok nb' →
          nb.check c = .ok findings → nb'.check c' = .ok findings' →
            findingsOf (Checked.ofInput c s i).fields =
              findingsOf (Checked.ofInput c' s' i').fields → findings = findings' := by
  have hlist : Function.Injective (List.map Finding.message) :=
    List.map_injective_iff.mpr Finding.message_injective
  refine ⟨fun c c' nb nb' findings findings' _ _ f _ f' _ h => Finding.message_injective h,
    fun o o' text text' h => map_injective_except hlist h, ?_⟩
  intro c c' s s' i i' nb nb' findings findings' hnb hnb' hcheck hcheck' h
  rw [Checked.ofInput_of_ok hnb hcheck, Checked.findingsOf_fields_ok,
    Checked.ofInput_of_ok hnb' hcheck', Checked.findingsOf_fields_ok] at h
  exact hlist h

/-- Whatever is found under another configuration with the message of a finding is this finding. -/
theorem findings_of_messages_oddShapes :
    Notebook.oddShapes.check {} = .ok [.inCell 0 .executionCount, .inCell 0 .outputs,
        .inCell 2 (.metadata "tags")] ∧
      Notebook.oddShapes.check { removeEmptyCells := true } = .ok [.inCell 0 .blank,
        .inCell 0 .executionCount, .inCell 0 .outputs, .inCell 2 .blank,
        .inCell 2 (.metadata "tags")] ∧
      ∀ f ∈ Notebook.oddShapes.findings { removeEmptyCells := true },
        (Finding.inCell 2 (.metadata "tags")).message = f.message →
          .inCell 2 (.metadata "tags") = f := by
  have hall : Notebook.oddShapes.check {} = .ok [.inCell 0 .executionCount, .inCell 0 .outputs,
      .inCell 2 (.metadata "tags")] := rfl
  have hdrop : Notebook.oddShapes.check { removeEmptyCells := true } = .ok [.inCell 0 .blank,
      .inCell 0 .executionCount, .inCell 0 .outputs, .inCell 2 .blank,
      .inCell 2 (.metadata "tags")] := rfl
  refine ⟨hall, hdrop, fun f hf h => ?_⟩
  exact findings_of_messages.1 _ _ _ _ _ _ hall hdrop _ (by decide) f hf h

end Command

end NotebookCleaning
