import NotebookCleaning.Command.Filter
import NotebookCleaning.Proofs.Arguments
import NotebookCleaning.Proofs.AttributesFile
import NotebookCleaning.Proofs.HoldingDirectory
import NotebookCleaning.Proofs.WrittenFile

/-!
# The attributes file along a history of edits

Adding and removing the filter line touches no other line of the attributes file, and never makes a
second filter line (`Attributes.kept_add`, `Attributes.kept_remove`). An edit of the file in a tree
either fails and leaves everything as it is, or it writes what the edit makes of the text that was
there. So a history of edits keeps the lines of the user, whatever edits of it fail, and none fails
once the file can be read (`history_keeps_lines`). An addition after a removal finds the line
missing unless it has survived (`addLine_after_removeLine`).
-/

namespace NotebookCleaning

namespace Attributes

open Line

/-- The lines of a text that are neither empty nor the filter line. -/
def userLines (text : String) : List (List Char) :=
  (split '\n' text.toList).filter fun l => l ≠ [] ∧ l ≠ filterLine.toList

def filterLineCount (text : String) : Nat := (split '\n' text.toList).count filterLine.toList

/-- The second text has the lines of the user that the first one has, and no second filter line
unless the first one has two. -/
structure Kept (before after : String) : Prop where
  userLines : userLines after = userLines before
  filterLineCount : filterLineCount before ≤ 1 → filterLineCount after ≤ 1

theorem Kept.refl (text : String) : Kept text text := ⟨rfl, id⟩

theorem Kept.trans {a b c : String} (h : Kept a b) (h' : Kept b c) : Kept a c where
  userLines := h'.userLines.trans h.userLines
  filterLineCount := h'.filterLineCount ∘ h.filterLineCount

variable {text text' : String}

theorem add_eq_none_iff : add text = none ↔ isPresent text = true := by
  unfold add
  split <;> simp [*]

/-- An addition that changes a text puts the filter line, which was not there, behind all lines. -/
theorem split_of_add (h : add text = some text') : filterLine.toList ∉ split '\n' text.toList ∧
    split '\n' text'.toList = split '\n' text.toList ++ [filterLine.toList, []] := by
  unfold add at h
  split at h
  · cases h
  · next habsent =>
    cases h
    refine ⟨fun hmem => habsent ((isPresent_iff text).mpr (.inl hmem)), ?_⟩
    have hlist : (text ++ "\n" ++ filterLine ++ "\n").toList =
        text.toList ++ '\n' :: (filterLine.toList ++ ['\n']) := by
      simp only [String.toList_append, List.append_assoc]
      rfl
    have hadded : split '\n' (filterLine.toList ++ ['\n']) = [filterLine.toList, []] := by decide
    rw [hlist, split_append_cons, hadded]

theorem kept_add (h : add text = some text') : Kept text text' where
  userLines := by
    rw [userLines, (split_of_add h).2, List.filter_append, ← userLines]
    exact List.append_nil _
  filterLineCount _ := by
    obtain ⟨habsent, hsplit⟩ := split_of_add h
    rw [filterLineCount, hsplit, List.count_append, List.count_eq_zero.mpr habsent]
    decide

theorem isPresent_of_add (h : add text = some text') : isPresent text' = true := by
  refine (isPresent_iff text').mpr (.inl ?_)
  rw [(split_of_add h).2]
  exact List.mem_append_right _ List.mem_cons_self

theorem kept_remove (text : String) : Kept text (remove text) where
  userLines := by
    have hkept : (keptLines text).filter (fun l => l ≠ [] ∧ l ≠ filterLine.toList) =
        userLines text := by
      rw [keptLines, List.filter_filter, userLines]
      refine List.filter_congr fun l _ => ?_
      by_cases hl : l = filterLine.toList <;> simp [hl]
    rw [← hkept, userLines, split_remove]
    split
    · next hnil => rw [hnil]; rfl
    · rfl
  filterLineCount _ := by
    have hgone : filterLine.toList ∉ split '\n' (remove text).toList := by
      rw [split_remove]
      split
      · decide
      · simp [keptLines]
    rw [filterLineCount, List.count_eq_zero.mpr hgone]
    exact Nat.zero_le 1

end Attributes

namespace Command.Repository

open Attributes FileTree

variable {t t' : FileTree} {directory text : String}

theorem attributesText_of_readText {p : Path} (h : t.readText p = .ok text) :
    attributesText t p = .ok text := by
  rw [attributesText, h]

theorem readText_of_attributesText_error {p : Path} {e : FileError}
    (h : attributesText t p = .error e) : t.readText p = .error e := by
  unfold attributesText at h
  split at h
  · cases h
  · exact h

theorem isFile_of_readText {p : Path} {text : String} (h : t.readText p = .ok text) :
    t.isFile p = true := by
  obtain ⟨l, hfind⟩ := find_of_read (readText_eq_ok_iff.mp h)
  rw [isFile, hfind]

/-- All that an addition can do. -/
theorem addLine_cases {added : Bool} (h : addLine t directory = .ok (added, t')) :
    ∃ text, attributesText t (attributesPath directory) = .ok text ∧
      (added = false ∧ isPresent text = true ∧ t' = t ∨
        added = true ∧ ∃ text', add text = some text' ∧
          t'.readText (attributesPath directory) = .ok text') := by
  unfold addLine at h
  obtain ⟨text, htext, h⟩ := bind_eq_ok_iff.mp h
  refine ⟨text, htext, ?_⟩
  cases hadd : add text with
  | none =>
    rw [hadd] at h
    cases h
    exact .inl ⟨rfl, add_eq_none_iff.mp hadd, rfl⟩
  | some text' =>
    rw [hadd] at h
    obtain ⟨t₁, -, h⟩ := bind_eq_ok_iff.mp h
    obtain ⟨t₂, hwrite, h⟩ := bind_eq_ok_iff.mp h
    cases h
    exact .inr ⟨rfl, text', rfl, readText_of_write hwrite⟩

/-- All that a removal can do. -/
theorem removeLine_cases (h : removeLine t directory = .ok t') :
    t.isFile (attributesPath directory) = false ∧ t' = t ∨
      ∃ text, t.readText (attributesPath directory) = .ok text ∧
        t'.readText (attributesPath directory) = .ok (remove text) := by
  unfold removeLine at h
  dsimp only at h
  split at h
  · obtain ⟨text, htext, h⟩ := bind_eq_ok_iff.mp h
    exact .inr ⟨text, htext, readText_of_write h⟩
  · next hfile =>
    cases h
    exact .inl ⟨Bool.not_eq_true _ ▸ hfile, rfl⟩

theorem attributesText_of_removeLine
    (htext : attributesText t (attributesPath directory) = .ok text)
    (h : removeLine t directory = .ok t') :
    attributesText t' (attributesPath directory) = .ok (remove text) := by
  obtain ⟨hfile, rfl⟩ | ⟨text₁, hread, hread'⟩ := removeLine_cases h
  · -- Without a file the text is empty, and nothing can be taken out of it.
    have hempty : text = "" := by
      unfold attributesText at htext
      split at htext
      · exact (Except.ok.inj htext).symm
      · rw [isFile_of_readText htext] at hfile
        cases hfile
    rw [htext, hempty]
    rfl
  · rw [attributesText_of_readText hread] at htext
    cases htext
    exact attributesText_of_readText hread'

/-- An addition after a removal finds the line missing just if it has not survived. -/
theorem added_after_removeLine_iff {added : Bool} {t'' : FileTree}
    (htext : attributesText t (attributesPath directory) = .ok text)
    (hremove : removeLine t directory = .ok t')
    (hadd : addLine t' directory = .ok (added, t'')) : added = true ↔ ¬Survives text := by
  have htext' := attributesText_of_removeLine htext hremove
  obtain ⟨text₁, htext₁, hcases⟩ := addLine_cases hadd
  obtain rfl : text₁ = remove text := Except.ok.inj (htext₁.symm.trans htext')
  rw [← isPresent_remove_iff]
  obtain ⟨rfl, hpresent, -⟩ | ⟨rfl, text', hadd, -⟩ := hcases
  · simp [hpresent]
  · have habsent : ¬isPresent (remove text) = true := by simp [← add_eq_none_iff, hadd]
    exact iff_of_true rfl habsent

theorem addLine_of_isPresent
    (htext : attributesText t (attributesPath directory) = .ok text)
    (hpresent : isPresent text = true) : addLine t directory = .ok (false, t) := by
  rw [addLine]
  simp only [htext, add_eq_none_iff.mpr hpresent, bind, Except.bind, pure, Except.pure]

/-- Directly after an addition the line is there, and adding it again changes nothing. -/
theorem addLine_addLine {added : Bool} (h : addLine t directory = .ok (added, t')) :
    addLine t' directory = .ok (false, t') := by
  obtain ⟨text, htext, ⟨-, hpresent, rfl⟩ | ⟨-, text', hadd, hread⟩⟩ := addLine_cases h
  · exact addLine_of_isPresent htext hpresent
  · exact addLine_of_isPresent (attributesText_of_readText hread) (isPresent_of_add hadd)

/-- The directory of an attributes file that is there is there too. -/
theorem isDirectory_info {l : Location} {n : Node}
    (h : t.find (attributesPath directory) = .node l n) :
    t.isDirectory (Path.join ⟨directory⟩ "info") = true := by
  have htext : ∃ front, (Path.join ⟨directory⟩ "info").text = front ++ "info" := by
    rw [Path.join]
    split
    · exact ⟨_, rfl⟩
    · exact ⟨_, rfl⟩
  obtain ⟨front, hfront⟩ := htext
  have hlast : (front ++ "info").toList.getLast? = some 'o' := by
    rw [String.toList_append, List.getLast?_append]
    rfl
  refine isDirectory_of_find_join ?_ ?_ (by decide) h
  · rw [hfront]
    intro hempty
    rw [hempty] at hlast
    cases hlast
  · rw [hfront, hlast]
    decide

inductive Edit where
  | add
  | remove

def Edit.run (directory : String) (t : FileTree) : Edit → Except FileError FileTree
  | add => (addLine t directory).map fun result => result.2
  | remove => removeLine t directory

/-- The tree after an edit. One that fails changes nothing. -/
def edited (directory : String) (t : FileTree) (e : Edit) : FileTree :=
  match e.run directory t with
  | .ok t' => t'
  | .error _ => t

def history (directory : String) (t : FileTree) (edits : List Edit) : FileTree :=
  edits.foldl (edited directory) t

theorem history_cons (directory : String) (t : FileTree) (e : Edit) (edits : List Edit) :
    history directory t (e :: edits) = history directory (edited directory t e) edits := rfl

theorem kept_of_run {e : Edit} (h : e.run directory t = .ok t')
    (htext : attributesText t (attributesPath directory) = .ok text) :
    ∃ text', attributesText t' (attributesPath directory) = .ok text' ∧ Kept text text' := by
  cases e with
  | add =>
    obtain ⟨⟨added, t₁⟩, hadd, rfl⟩ := map_eq_ok_iff.mp h
    obtain ⟨text₁, htext₁, ⟨-, -, rfl⟩ | ⟨-, text', hadd, hread⟩⟩ := addLine_cases hadd
    · exact ⟨text, htext, .refl text⟩
    · rw [htext] at htext₁
      cases htext₁
      exact ⟨text', attributesText_of_readText hread, kept_add hadd⟩
  | remove =>
    obtain ⟨-, rfl⟩ | ⟨text₁, hread₁, hread⟩ := removeLine_cases h
    · exact ⟨text, htext, .refl text⟩
    · rw [attributesText_of_readText hread₁] at htext
      cases htext
      exact ⟨_, attributesText_of_readText hread, kept_remove text⟩

theorem kept_edited (e : Edit) (htext : attributesText t (attributesPath directory) = .ok text) :
    ∃ text', attributesText (edited directory t e) (attributesPath directory) = .ok text' ∧
      Kept text text' := by
  unfold edited
  split
  · next t' hrun => exact kept_of_run hrun htext
  · exact ⟨text, htext, .refl text⟩

theorem kept_history (edits : List Edit)
    (htext : attributesText t (attributesPath directory) = .ok text) :
    ∃ text', attributesText (history directory t edits) (attributesPath directory) = .ok text' ∧
      Kept text text' := by
  induction edits generalizing t text with
  | nil => exact ⟨text, htext, .refl text⟩
  | cons e edits ih =>
    obtain ⟨text₁, htext₁, hkept⟩ := kept_edited e htext
    obtain ⟨text', htext', hkept'⟩ := ih htext₁
    exact ⟨text', htext', hkept.trans hkept'⟩

theorem edited_of_error {cause : FileError} (e : Edit)
    (h : attributesText t (attributesPath directory) = .error cause) :
    edited directory t e = t := by
  cases e with
  | add =>
    have hadd : addLine t directory = .error cause := by
      rw [addLine]
      simp only [h, bind, Except.bind]
    rw [edited, Edit.run, hadd]
    rfl
  | remove =>
    have hread := readText_of_attributesText_error h
    rw [edited, Edit.run, removeLine]
    by_cases hfile : t.isFile (attributesPath directory) = true
    · simp only [hfile, hread, if_true, bind, Except.bind]
    · simp only [hfile, if_false, Bool.false_eq_true, pure, Except.pure]

theorem history_of_error {cause : FileError} (edits : List Edit)
    (h : attributesText t (attributesPath directory) = .error cause) :
    history directory t edits = t := by
  induction edits with
  | nil => rfl
  | cons e edits ih => rw [history_cons, edited_of_error e h, ih]

theorem addLine_of_readText (h : t.readText (attributesPath directory) = .ok text) :
    ∃ added t', addLine t directory = .ok (added, t') := by
  have htext := attributesText_of_readText h
  cases hadd : add text with
  | none => exact ⟨_, _, addLine_of_isPresent htext (add_eq_none_iff.mp hadd)⟩
  | some text' =>
    obtain ⟨l, hfind⟩ := find_of_read (readText_eq_ok_iff.mp h)
    refine ⟨true, t.writeAt l (Utf8.encode text'), ?_⟩
    rw [addLine]
    simp only [htext, hadd, makeDirectories_of_isDirectory (isDirectory_info hfind),
      write_of_find hfind, bind, Except.bind, pure, Except.pure]

theorem removeLine_of_readText (h : t.readText (attributesPath directory) = .ok text) :
    ∃ t', removeLine t directory = .ok t' := by
  obtain ⟨l, hfind⟩ := find_of_read (readText_eq_ok_iff.mp h)
  refine ⟨t.writeAt l (Utf8.encode (remove text)), ?_⟩
  rw [removeLine]
  simp only [isFile_of_readText h, h, write_of_find hfind, if_true, bind, Except.bind]

/-- An edit of a file that can be read succeeds, and the file can be read after it. -/
theorem run_of_readText (e : Edit) (h : t.readText (attributesPath directory) = .ok text) :
    ∃ t' text', e.run directory t = .ok t' ∧
      t'.readText (attributesPath directory) = .ok text' := by
  cases e with
  | add =>
    obtain ⟨added, t', hadd⟩ := addLine_of_readText h
    obtain ⟨-, -, ⟨-, -, rfl⟩ | ⟨-, text', -, hread⟩⟩ := addLine_cases hadd
    · exact ⟨t', text, map_eq_ok_iff.mpr ⟨_, hadd, rfl⟩, h⟩
    · exact ⟨t', text', map_eq_ok_iff.mpr ⟨_, hadd, rfl⟩, hread⟩
  | remove =>
    obtain ⟨t', hremove⟩ := removeLine_of_readText h
    obtain ⟨-, rfl⟩ | ⟨_, -, hread⟩ := removeLine_cases hremove
    · exact ⟨t', text, hremove, h⟩
    · exact ⟨t', _, hremove, hread⟩

/-- From a file that can be read the line can be taken out, and it can be added again then; it is
missing in between just if it has not survived. -/
theorem addLine_after_removeLine (h : t.readText (attributesPath directory) = .ok text) :
    ∃ t' added t'', removeLine t directory = .ok t' ∧
      addLine t' directory = .ok (added, t'') ∧ (added = true ↔ ¬Survives text) := by
  obtain ⟨t', text', hremove, hread⟩ := run_of_readText .remove h
  obtain ⟨added, t'', hadd⟩ := addLine_of_readText hread
  exact ⟨t', added, t'', hremove, hadd,
    added_after_removeLine_iff (attributesText_of_readText h) hremove hadd⟩

theorem readText_history (edits : List Edit)
    (h : t.readText (attributesPath directory) = .ok text) :
    ∃ text', (history directory t edits).readText (attributesPath directory) = .ok text' := by
  induction edits generalizing t text with
  | nil => exact ⟨text, h⟩
  | cons e edits ih =>
    obtain ⟨t', text', hrun, hread⟩ := run_of_readText e h
    rw [history_cons, edited, hrun]
    exact ih hread

/-- Whatever happens along a history of edits, the lines of the user stay as they are, and at most
one filter line stays at most one. A file that cannot be read is left alone, and one that can be
read makes every edit succeed. An addition that finds the line changes nothing, and so does every
addition directly after another one. -/
theorem history_keeps_lines (directory : String) (t : FileTree) (edits : List Edit) :
    (∀ text, attributesText t (attributesPath directory) = .ok text →
      ∃ text', attributesText (history directory t edits) (attributesPath directory) = .ok text' ∧
        userLines text' = userLines text ∧
        (filterLineCount text ≤ 1 → filterLineCount text' ≤ 1)) ∧
      (∀ cause, attributesText t (attributesPath directory) = .error cause →
        history directory t edits = t) ∧
      (∀ text, t.readText (attributesPath directory) = .ok text →
        ∀ e : Edit, ∃ t', e.run directory (history directory t edits) = .ok t') ∧
      (∀ t', addLine (history directory t edits) directory = .ok (false, t') →
        t' = history directory t edits) ∧
      ∀ added t', addLine (history directory t edits) directory = .ok (added, t') →
        addLine t' directory = .ok (false, t') := by
  refine ⟨fun text htext => ?_, fun cause => history_of_error edits, fun text htext e => ?_,
    fun t' hadd => ?_, fun added t' => addLine_addLine⟩
  · obtain ⟨text', htext', hkept⟩ := kept_history edits htext
    exact ⟨text', htext', hkept.userLines, hkept.filterLineCount⟩
  · obtain ⟨text', htext'⟩ := readText_history edits htext
    obtain ⟨t', -, hrun, -⟩ := run_of_readText e htext'
    exact ⟨t', hrun⟩
  · obtain ⟨-, -, ⟨-, -, heq⟩ | ⟨hadded, -⟩⟩ := addLine_cases hadd
    · exact heq
    · cases hadded

/-- A repository that has no attributes file yet. -/
def unrouted : FileTree := { nodes := [([".git"], .directory)], current := [] }

example : (attributesText (history ".git" unrouted [.add, .add, .remove, .add])
    (attributesPath ".git")).toOption = some "\n\n*.ipynb filter=nb-clean\n" := by decide +kernel

end Command.Repository

end NotebookCleaning
