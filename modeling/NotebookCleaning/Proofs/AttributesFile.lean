import NotebookCleaning.Attributes
import NotebookCleaning.Proofs.Lines

/-!
# Taking the filter line out and adding it again

Adding looks for the filter line among the lines of the file, where a carriage return before a line
feed is no part of a line; removing looks for it between line feeds, where it is. So a filter line
that ends in a carriage return and a line feed survives its removal, and is found again, unless only
filter lines follow it (`add_after_remove_iff`). In every other file the line is gone after its
removal, and adding it puts it at the end.
-/

namespace NotebookCleaning

namespace Attributes

open Line

/-- The filter line as it stands in a file whose lines end in a carriage return and a line feed. -/
def returnedLine : List Char := filterLine.toList ++ ['\r']

/-- The lines of a text that removing the filter line keeps. -/
def keptLines (text : String) : List (List Char) :=
  (split '\n' text.toList).filter fun l => l ≠ filterLine.toList

/-- Some line of the text is the filter line with a carriage return, and other lines than the filter
line follow it. The empty end of a text after its last line feed is one of these. -/
def Survives (text : String) : Prop :=
  ∃ before after, split '\n' text.toList = before ++ returnedLine :: after ∧
    ∃ p ∈ after, p ≠ filterLine.toList

theorem isPresent_iff (text : String) : isPresent text = true ↔
    filterLine.toList ∈ split '\n' text.toList ∨
      returnedLine ∈ (split '\n' text.toList).dropLast := by
  rw [isPresent, List.contains_iff_mem, mem_lines_iff (by decide) (by decide)]
  rfl

theorem survives_iff (text : String) :
    Survives text ↔ returnedLine ∈ (keptLines text).dropLast := by
  rw [mem_dropLast_iff]
  constructor
  · rintro ⟨before, after, hsplit, p, hp, hne⟩
    refine ⟨before.filter fun l => l ≠ filterLine.toList,
      after.filter fun l => l ≠ filterLine.toList, ?_, ?_⟩
    · rw [keptLines, hsplit, List.filter_append, List.filter_cons_of_pos (by decide)]
    · exact List.ne_nil_of_mem (List.mem_filter.mpr ⟨hp, decide_eq_true hne⟩)
  · rintro ⟨before, after, hkept, hafter⟩
    obtain ⟨xs, ys, hsplit, -, hys⟩ := List.filter_eq_append_iff.mp hkept
    obtain ⟨skipped, after', rfl, -, -, rfl⟩ := List.filter_eq_cons_iff.mp hys
    obtain ⟨p, hp⟩ := List.exists_mem_of_ne_nil _ hafter
    rw [List.mem_filter, decide_eq_true_eq] at hp
    exact ⟨xs ++ skipped, after', by rw [hsplit, List.append_assoc], p, hp⟩

theorem remove_eq (text : String) : remove text = String.ofList (join '\n' (keptLines text)) := rfl

theorem split_remove (text : String) : split '\n' (remove text).toList =
    if keptLines text = [] then [[]] else keptLines text := by
  rw [remove_eq, String.toList_ofList]
  split
  · next hkept =>
    rw [hkept]
    rfl
  · next hkept =>
    exact split_join hkept fun p hp hc => (mem_of_mem_split (List.mem_filter.mp hp).1 hc).1 rfl

theorem remove_remove (text : String) : remove (remove text) = remove text := by
  rw [remove_eq (remove text), keptLines, split_remove]
  split
  · next hkept =>
    rw [remove_eq, hkept]
    rfl
  · next hkept =>
    have hself : (keptLines text).filter (fun l => l ≠ filterLine.toList) = keptLines text :=
      List.filter_eq_self.mpr fun l hl => (List.mem_filter.mp hl).2
    rw [hself]
    rfl

theorem isPresent_remove_iff (text : String) : isPresent (remove text) = true ↔ Survives text := by
  rw [survives_iff, isPresent_iff, split_remove]
  split
  · next hkept =>
    rw [hkept]
    decide
  · have hgone : filterLine.toList ∉ keptLines text := by simp [keptLines]
    exact or_iff_right hgone

/-- A text without carriage returns has no line that ends in one. -/
theorem not_survives_of_notMem {text : String} (h : '\r' ∉ text.toList) : ¬Survives text := by
  rintro ⟨before, after, hsplit, -⟩
  have hmem : returnedLine ∈ split '\n' text.toList := by
    rw [hsplit]
    exact List.mem_append_right _ List.mem_cons_self
  have hreturn : '\r' ∈ returnedLine := List.mem_append_right _ List.mem_cons_self
  exact h (mem_of_mem_split hmem hreturn).2

/-- Once the filter line has been removed, adding it puts it at the end of the text, unless it
survives its removal in a line that ends in a carriage return; then adding changes nothing. -/
theorem add_after_remove_iff (text : String) :
    (isPresent (remove text) = false ↔ ¬Survives text) ∧
      (add (remove text) = some (remove text ++ "\n" ++ filterLine ++ "\n") ↔ ¬Survives text) ∧
      (add (remove text) = none ↔ Survives text) ∧
      ('\r' ∉ text.toList → ¬Survives text) := by
  have hpresent := isPresent_remove_iff text
  refine ⟨by rw [← hpresent, Bool.not_eq_true], ?_, ?_, not_survives_of_notMem⟩
  · rw [← hpresent, add]
    cases isPresent (remove text) <;> simp
  · rw [← hpresent, add]
    cases isPresent (remove text) <;> simp

/-- A file whose only line is the filter line, ended by a carriage return and a line feed. -/
def returnedText : String := filterLine ++ "\r\n"

/-- Removing the filter line leaves the file as it is, and adding the line finds it there. -/
theorem returned_line_survives : remove returnedText = returnedText ∧
    isPresent (remove returnedText) = true ∧ add (remove returnedText) = none := by
  decide +kernel

end Attributes

end NotebookCleaning
