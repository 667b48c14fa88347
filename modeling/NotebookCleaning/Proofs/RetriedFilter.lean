import NotebookCleaning.Proofs.AttributesHistory

/-!
# Attempts to add or remove the filter

An attempt ends at the first call of git that fails, so it may leave the command stored without the
line or take the line out without dropping the command. Each attempt may have a git of its own. What
an attempt can do is said once for each of the two changes (`addAttempt`, `removeAttempt`); along
any attempts the files are those of the beginning or those of one change that succeeded, and they
are the latter as soon as an attempt succeeds (`attempts_settle`).
-/

namespace NotebookCleaning.Command

/-- Calls, each with what it gives. -/
def Git.answers : Git → List (List String) → List (List String × Except GitError String)
  | _, [] => []
  | g, args :: calls => (args, (g.call args).1) :: answers (g.call args).2 calls

namespace Repository

open Attributes FileTree

/-- What attempts have led to: the files, and the calls of git with their answers. -/
structure Trail where
  tree : FileTree
  answers : List (List String × Except GitError String) := []

def storeCall (c : Config) : List String := ["config", filterName ++ ".clean", c.filterCommand]

def locateCall : List String := ["rev-parse", "--git-dir"]

def dropCall : List String := ["config", "--remove-section", filterName]

def stored? : List String × Except GitError String → Option String
  | (["config", key, command], .ok _) =>
    if key = filterName ++ ".clean" then some command else none
  | _ => none

namespace Trail

variable {α : Type}

/-- A change of a repository, attempted with a git of its own. -/
def attempt (change : Repository → Except FilterError α × Repository) (s : Trail) (g : Git) :
    Except FilterError α × Trail :=
  let (result, r) := change ⟨s.tree, g, []⟩
  (result, ⟨r.tree, s.answers ++ g.answers r.calls⟩)

def attempts (change : Repository → Except FilterError α × Repository) (s : Trail)
    (gits : List Git) : Trail :=
  gits.foldl (fun s g => (s.attempt change g).2) s

def command (s : Trail) : Option String := (s.answers.filterMap stored?).getLast?

def attributes (directory : String) (s : Trail) : Except FileError (List UInt8) :=
  s.tree.read (attributesPath directory)

/-- Wherever git gives the directory of the repository it gives this one. -/
def Locates (directory : String) (s : Trail) : Prop :=
  ∀ d, (locateCall, .ok d) ∈ s.answers → d = directory

instance (directory : String) (s : Trail) : Decidable (s.Locates directory) :=
  decidable_of_iff (∀ a ∈ s.answers, a.1 = locateCall → ∀ d ∈ a.2.toOption, d = directory) <| by
    refine ⟨fun h d hd => h _ hd rfl d rfl, fun h a ha hcall d hd => h d ?_⟩
    obtain ⟨call, e | d'⟩ := a
    · cases hd
    · cases hcall
      cases hd
      exact ha

/-- One attempt that succeeds leads from one trail to another. -/
def Succeeds (change : Repository → Except FilterError α × Repository) (directory : String)
    (s s' : Trail) : Prop :=
  ∃ g a, s.attempt change g = (.ok a, s') ∧ s'.Locates directory

end Trail

/-- What an attempt to add the filter of a valid configuration can do. -/
inductive AddAttempt (c : Config) (g : Git) (s : Trail) :
    Except FilterError Bool → Trail → Prop where
  | notStored {e : GitError} : g.answers [storeCall c] = [(storeCall c, .error e)] →
    AddAttempt c g s (.error (.git e)) ⟨s.tree, s.answers ++ [(storeCall c, .error e)]⟩
  | notLocated {out : String} {e : GitError} :
    g.answers [storeCall c, locateCall] = [(storeCall c, .ok out), (locateCall, .error e)] →
    AddAttempt c g s (.error (.git e))
      ⟨s.tree, s.answers ++ [(storeCall c, .ok out), (locateCall, .error e)]⟩
  | notWritten {out d : String} {e : FileError} :
    g.answers [storeCall c, locateCall] = [(storeCall c, .ok out), (locateCall, .ok d)] →
    addLine s.tree d = .error e →
    AddAttempt c g s (.error (.attributes (attributesPath d) e))
      ⟨s.tree, s.answers ++ [(storeCall c, .ok out), (locateCall, .ok d)]⟩
  | done {out d : String} {added : Bool} {t' : FileTree} :
    g.answers [storeCall c, locateCall] = [(storeCall c, .ok out), (locateCall, .ok d)] →
    addLine s.tree d = .ok (added, t') →
    AddAttempt c g s (.ok added)
      ⟨t', s.answers ++ [(storeCall c, .ok out), (locateCall, .ok d)]⟩

/-- What an attempt to remove the filter can do. -/
inductive RemoveAttempt (g : Git) (s : Trail) : Except FilterError Unit → Trail → Prop where
  | notLocated {e : GitError} : g.answers [locateCall] = [(locateCall, .error e)] →
    RemoveAttempt g s (.error (.git e)) ⟨s.tree, s.answers ++ [(locateCall, .error e)]⟩
  | notWritten {d : String} {e : FileError} : g.answers [locateCall] = [(locateCall, .ok d)] →
    removeLine s.tree d = .error e →
    RemoveAttempt g s (.error (.attributes (attributesPath d) e))
      ⟨s.tree, s.answers ++ [(locateCall, .ok d)]⟩
  | notDropped {d : String} {e : GitError} {t' : FileTree} :
    g.answers [locateCall, dropCall] = [(locateCall, .ok d), (dropCall, .error e)] →
    removeLine s.tree d = .ok t' →
    RemoveAttempt g s (.error (.git e))
      ⟨t', s.answers ++ [(locateCall, .ok d), (dropCall, .error e)]⟩
  | done {d out : String} {t' : FileTree} :
    g.answers [locateCall, dropCall] = [(locateCall, .ok d), (dropCall, .ok out)] →
    removeLine s.tree d = .ok t' →
    RemoveAttempt g s (.ok ()) ⟨t', s.answers ++ [(locateCall, .ok d), (dropCall, .ok out)]⟩

variable {c : Config} {g : Git} {s s' : Trail}

theorem attempt_addFilter_of_not_valid (hc : ¬c.Valid) (g : Git) (s : Trail) :
    s.attempt (addFilter c) g = (.error (.config .conflict), s) := by
  have hinvalid : c.filterCommand? = .error .conflict := Config.map_validate_of_not_valid hc _
  simp only [Trail.attempt, addFilter, hinvalid, Git.answers, List.append_nil]

theorem addAttempt (hc : c.Valid) (g : Git) (s : Trail) :
    AddAttempt c g s (s.attempt (addFilter c) g).1 (s.attempt (addFilter c) g).2 := by
  have hvalid : c.filterCommand? = .ok c.filterCommand := Config.map_validate_of_valid hc _
  unfold Trail.attempt addFilter callGit
  simp only [hvalid]
  rw [← storeCall, ← locateCall]
  rcases hstore : g.call (storeCall c) with ⟨e | out, g₁⟩
  · have hanswers : g.answers [storeCall c] = [(storeCall c, .error e)] := by
      rw [Git.answers, hstore, Git.answers]
    simp only [Except.mapError, List.nil_append, hanswers]
    exact .notStored hanswers
  · rcases hlocate : g₁.call locateCall with ⟨e | d, g₂⟩
    · have hanswers : g.answers [storeCall c, locateCall] =
          [(storeCall c, .ok out), (locateCall, .error e)] := by
        simp only [Git.answers, hstore, hlocate]
      simp only [Except.mapError, List.nil_append, hlocate, List.cons_append, hanswers]
      exact .notLocated hanswers
    · have hanswers : g.answers [storeCall c, locateCall] =
          [(storeCall c, .ok out), (locateCall, .ok d)] := by
        simp only [Git.answers, hstore, hlocate]
      simp only [Except.mapError, List.nil_append, hlocate, List.cons_append]
      rcases hadd : addLine s.tree d with e | ⟨added, t'⟩
      · simp only [hanswers]
        exact .notWritten hanswers hadd
      · simp only [hanswers]
        exact .done hanswers hadd

theorem removeAttempt (g : Git) (s : Trail) :
    RemoveAttempt g s (s.attempt removeFilter g).1 (s.attempt removeFilter g).2 := by
  unfold Trail.attempt removeFilter callGit
  rw [← locateCall, ← dropCall]
  rcases hlocate : g.call locateCall with ⟨e | d, g₁⟩
  · have hanswers : g.answers [locateCall] = [(locateCall, .error e)] := by
      simp only [Git.answers, hlocate]
    simp only [Except.mapError, List.nil_append, hanswers]
    exact .notLocated hanswers
  · simp only [Except.mapError, List.nil_append]
    rcases hremove : removeLine s.tree d with e | t'
    · have hanswers : g.answers [locateCall] = [(locateCall, .ok d)] := by
        simp only [Git.answers, hlocate]
      simp only [hanswers]
      exact .notWritten hanswers hremove
    · rcases hdrop : g₁.call dropCall with ⟨e | out, g₂⟩
      · have hanswers : g.answers [locateCall, dropCall] =
            [(locateCall, .ok d), (dropCall, .error e)] := by
          simp only [Git.answers, hlocate, hdrop]
        simp only [List.cons_append, List.nil_append, hanswers]
        exact .notDropped hanswers hremove
      · have hanswers : g.answers [locateCall, dropCall] =
            [(locateCall, .ok d), (dropCall, .ok out)] := by
          simp only [Git.answers, hlocate, hdrop]
        simp only [List.cons_append, List.nil_append, hanswers]
        exact .done hanswers hremove

/-- With these answers the filter is added if the line is. -/
theorem attempt_addFilter {out d : String} {added : Bool} {t' : FileTree} (hc : c.Valid)
    (hanswers : g.answers [storeCall c, locateCall] = [(storeCall c, .ok out), (locateCall, .ok d)])
    (hadd : addLine s.tree d = .ok (added, t')) : s.attempt (addFilter c) g =
      (.ok added, ⟨t', s.answers ++ [(storeCall c, .ok out), (locateCall, .ok d)]⟩) := by
  have hvalid : c.filterCommand? = .ok c.filterCommand := Config.map_validate_of_valid hc _
  unfold Trail.attempt addFilter callGit
  simp only [hvalid]
  rw [← storeCall, ← locateCall, ← hanswers]
  rcases hstore : g.call (storeCall c) with ⟨stored, g₁⟩
  rcases hlocate : g₁.call locateCall with ⟨located, g₂⟩
  simp only [Git.answers, hstore, hlocate, List.cons.injEq, Prod.mk.injEq, true_and,
    and_true] at hanswers
  obtain ⟨rfl, rfl⟩ := hanswers
  simp only [Except.mapError, hlocate, hadd, List.nil_append, List.cons_append]

theorem attempt_removeFilter {out d : String} {t' : FileTree}
    (hanswers : g.answers [locateCall, dropCall] = [(locateCall, .ok d), (dropCall, .ok out)])
    (hremove : removeLine s.tree d = .ok t') : s.attempt removeFilter g =
      (.ok (), ⟨t', s.answers ++ [(locateCall, .ok d), (dropCall, .ok out)]⟩) := by
  unfold Trail.attempt removeFilter callGit
  rw [← locateCall, ← dropCall, ← hanswers]
  rcases hlocate : g.call locateCall with ⟨located, g₁⟩
  rcases hdrop : g₁.call dropCall with ⟨dropped, g₂⟩
  simp only [Git.answers, hlocate, hdrop, List.cons.injEq, Prod.mk.injEq, true_and,
    and_true] at hanswers
  obtain ⟨rfl, rfl⟩ := hanswers
  simp only [Except.mapError, hremove, hdrop, List.nil_append, List.cons_append]

section Trail

variable {α : Type} {change : Repository → Except FilterError α × Repository} {directory : String}
  {gits : List Git}

theorem Trail.attempts_append (s : Trail) (before after : List Git) :
    s.attempts change (before ++ after) = (s.attempts change before).attempts change after :=
  List.foldl_append

theorem Trail.Locates.of_attempt (h : (s.attempt change g).2.Locates directory) :
    s.Locates directory :=
  fun d hd => h d (List.mem_append_left _ hd)

theorem Trail.Locates.of_attempts (h : (s.attempts change gits).Locates directory) :
    s.Locates directory := by
  induction gits generalizing s with
  | nil => exact h
  | cons g gits ih => exact (ih h).of_attempt

/-- What each attempt keeps, attempts keep. -/
theorem Trail.attempts_preserve {P : Trail → Prop}
    (hstep : ∀ {s g}, P s → (s.attempt change g).2.Locates directory → P (s.attempt change g).2)
    (hs : P s) (h : (s.attempts change gits).Locates directory) : P (s.attempts change gits) := by
  induction gits generalizing s with
  | nil => exact hs
  | cons g gits ih =>
    have hfirst : (s.attempt change g).2.Locates directory := .of_attempts h
    exact ih (hstep hs hfirst) h

end Trail

section Add

variable {t : FileTree} {directory : String}

/-- The line has been added to the files of the beginning, and the command has been stored. -/
structure Installed (c : Config) (t : FileTree) (directory : String) (s : Trail) : Prop where
  line : ∃ added, addLine t directory = .ok (added, s.tree)
  command : s.command = some c.filterCommand

theorem stored?_storeCall (c : Config) (out : String) :
    stored? (storeCall c, .ok out) = some c.filterCommand := by
  simp [stored?, storeCall]

theorem command_of_stored (c : Config) (out : String) (located : Except GitError String)
    (t : FileTree) (answers : List (List String × Except GitError String)) :
    (Trail.mk t (answers ++ [(storeCall c, .ok out), (locateCall, located)])).command =
      some c.filterCommand := by
  have hlocated : stored? (locateCall, located) = none := by cases located <;> rfl
  simp [Trail.command, stored?_storeCall, hlocated]

/-- An attempt adds the line or leaves the files as they are, and if git stores a command it is that
of the configuration. -/
theorem attempt_addFilter_cases (hl : (s.attempt (addFilter c) g).2.Locates directory) :
    (∃ e, (s.attempt (addFilter c) g).1 = .error e ∧ (s.attempt (addFilter c) g).2.tree = s.tree ∧
        ((s.attempt (addFilter c) g).2.command = s.command ∨
          (s.attempt (addFilter c) g).2.command = some c.filterCommand)) ∨
      (c.Valid ∧ ∃ out, g.answers [storeCall c, locateCall] =
          [(storeCall c, .ok out), (locateCall, .ok directory)]) ∧
        (∃ added, addLine s.tree directory =
          .ok (added, (s.attempt (addFilter c) g).2.tree)) ∧
        (s.attempt (addFilter c) g).2.command = some c.filterCommand := by
  by_cases hc : c.Valid
  case neg =>
    rw [attempt_addFilter_of_not_valid hc]
    exact .inl ⟨_, rfl, rfl, .inl rfl⟩
  have h := addAttempt hc g s
  generalize s.attempt (addFilter c) g = x at h hl ⊢
  obtain ⟨result, s'⟩ := x
  cases h with
  | notStored h => exact .inl ⟨_, rfl, rfl, .inl (by simp [Trail.command, stored?, storeCall])⟩
  | notLocated h => exact .inl ⟨_, rfl, rfl, .inr (command_of_stored ..)⟩
  | notWritten h hadd => exact .inl ⟨_, rfl, rfl, .inr (command_of_stored ..)⟩
  | @done out d added t' h hadd =>
    have hd : d = directory := hl d (by simp)
    subst hd
    exact .inr ⟨⟨hc, out, h⟩, ⟨added, hadd⟩, command_of_stored ..⟩

theorem Installed.attempt (h : Installed c t directory s)
    (hl : (s.attempt (addFilter c) g).2.Locates directory) :
    Installed c t directory (s.attempt (addFilter c) g).2 := by
  obtain ⟨added, hline⟩ := h.line
  obtain ⟨e, -, htree, hcommand⟩ | ⟨-, ⟨added', hadd⟩, hcommand⟩ := attempt_addFilter_cases hl
  · refine ⟨⟨added, by rw [htree, hline]⟩, ?_⟩
    rcases hcommand with hcommand | hcommand
    · rw [hcommand, h.command]
    · exact hcommand
  · rw [addLine_addLine hline, Except.ok.injEq, Prod.mk.injEq] at hadd
    exact ⟨⟨added, by rw [← hadd.2, hline]⟩, hcommand⟩

/-- Before the line is added the files are those of the beginning. -/
theorem installed_attempt (h : s.tree = t ∨ Installed c t directory s)
    (hl : (s.attempt (addFilter c) g).2.Locates directory) :
    (s.attempt (addFilter c) g).2.tree = t ∨
      Installed c t directory (s.attempt (addFilter c) g).2 := by
  rcases h with rfl | h
  · obtain ⟨e, -, htree, -⟩ | ⟨-, hadd, hcommand⟩ := attempt_addFilter_cases hl
    · exact .inl htree
    · exact .inr ⟨hadd, hcommand⟩
  · exact .inr (h.attempt hl)

theorem installed_of_ok {added : Bool} (h : s.tree = t ∨ Installed c t directory s)
    (hl : (s.attempt (addFilter c) g).2.Locates directory)
    (hok : (s.attempt (addFilter c) g).1 = .ok added) :
    Installed c t directory (s.attempt (addFilter c) g).2 := by
  rcases h with rfl | h
  · obtain ⟨e, herror, -⟩ | ⟨-, hadd, hcommand⟩ := attempt_addFilter_cases hl
    · rw [hok] at herror
      cases herror
    · exact ⟨hadd, hcommand⟩
  · exact h.attempt hl

/-- Once an attempt has succeeded, further attempts change nothing. -/
theorem installed_attempts {before after : List Git} {added : Bool}
    (hl : ((Trail.mk t []).attempts (addFilter c) (before ++ g :: after)).Locates directory)
    (hok : (((Trail.mk t []).attempts (addFilter c) before).attempt (addFilter c) g).1 =
      .ok added) :
    Installed c t directory ((Trail.mk t []).attempts (addFilter c) (before ++ g :: after)) := by
  rw [Trail.attempts_append] at hl ⊢
  have hsuccess : (((Trail.mk t []).attempts (addFilter c) before).attempt
      (addFilter c) g).2.Locates directory := .of_attempts hl
  have hbefore : ((Trail.mk t []).attempts (addFilter c) before).tree = t ∨
      Installed c t directory ((Trail.mk t []).attempts (addFilter c) before) :=
    Trail.attempts_preserve (P := fun s => s.tree = t ∨ Installed c t directory s)
      installed_attempt (.inl rfl) hsuccess.of_attempt
  change Installed c t directory (Trail.attempts _ (Trail.attempt _ _ g).2 after)
  exact Trail.attempts_preserve Installed.attempt (installed_of_ok hbefore hsuccess hok) hl

/-- With a git that let one attempt succeed, an attempt on other files succeeds if the line can be
added to them. -/
theorem succeeds_addFilter {added added' : Bool} {t' : FileTree}
    (hl : (s.attempt (addFilter c) g).2.Locates directory)
    (hok : (s.attempt (addFilter c) g).1 = .ok added)
    (hadd : addLine t directory = .ok (added', t')) :
    ∃ s₁, (Trail.mk t []).Succeeds (addFilter c) directory s₁ := by
  obtain ⟨e, herror, -⟩ | ⟨⟨hc, out, hanswers⟩, -⟩ := attempt_addFilter_cases hl
  · rw [hok] at herror
    cases herror
  · refine ⟨_, g, added', attempt_addFilter hc hanswers hadd, ?_⟩
    intro d hd
    simpa [storeCall, locateCall] using hd

theorem Trail.Succeeds.installed (h : (Trail.mk t []).Succeeds (addFilter c) directory s) :
    Installed c t directory s := by
  obtain ⟨g, added, hattempt, hl⟩ := h
  have hs : ((Trail.mk t []).attempt (addFilter c) g).2 = s := by rw [hattempt]
  rw [← hs] at hl ⊢
  exact installed_of_ok (.inl rfl) hl (by rw [hattempt])

theorem Installed.eq (h : Installed c t directory s) (h' : Installed c t directory s') :
    s.tree = s'.tree ∧ s.command = s'.command := by
  obtain ⟨⟨added, hline⟩, hcommand⟩ := h
  obtain ⟨⟨added', hline'⟩, hcommand'⟩ := h'
  rw [hline, Except.ok.injEq, Prod.mk.injEq] at hline'
  exact ⟨hline'.2, hcommand.trans hcommand'.symm⟩

end Add

section Remove

variable {t : FileTree} {directory : String}

/-- The attributes file reads as it does when the line has been removed from the files of the
beginning. -/
def Uninstalled (t : FileTree) (directory : String) (s : Trail) : Prop :=
  ∃ t', removeLine t directory = .ok t' ∧
    s.attributes directory = t'.read (attributesPath directory)

/-- Once the line is out, taking it out again leaves the file as it is. -/
theorem read_removeLine_removeLine {t₁ t' t'' : FileTree} (h : removeLine t directory = .ok t')
    (hread : t₁.read (attributesPath directory) = t'.read (attributesPath directory))
    (h' : removeLine t₁ directory = .ok t'') :
    t''.read (attributesPath directory) = t'.read (attributesPath directory) := by
  obtain ⟨-, rfl⟩ | ⟨text, htext, htext''⟩ := removeLine_cases h'
  · exact hread
  · have htext₁ : t'.readText (attributesPath directory) = .ok text := by
      rw [readText_eq_ok_iff, ← hread, readText_eq_ok_iff.mp htext]
    obtain ⟨hfile, rfl⟩ | ⟨before, -, hafter⟩ := removeLine_cases h
    · rw [isFile_of_readText htext₁] at hfile
      cases hfile
    · rw [htext₁, Except.ok.injEq] at hafter
      rw [readText_eq_ok_iff.mp htext'', hafter, remove_remove, ← hafter,
        readText_eq_ok_iff.mp htext₁]

/-- An attempt that succeeds takes the line out, and one that fails takes it out or does nothing. -/
theorem attempt_removeFilter_cases (hl : (s.attempt removeFilter g).2.Locates directory) :
    (∃ e, (s.attempt removeFilter g).1 = .error e ∧ (s.attempt removeFilter g).2.tree = s.tree) ∨
      removeLine s.tree directory = .ok (s.attempt removeFilter g).2.tree ∧
        ((s.attempt removeFilter g).1 = .ok () → ∃ out, g.answers [locateCall, dropCall] =
          [(locateCall, .ok directory), (dropCall, .ok out)]) := by
  have h := removeAttempt g s
  generalize s.attempt removeFilter g = x at h hl ⊢
  obtain ⟨result, s'⟩ := x
  cases h with
  | notLocated h => exact .inl ⟨_, rfl, rfl⟩
  | notWritten h hremove => exact .inl ⟨_, rfl, rfl⟩
  | @notDropped d e t' h hremove =>
    have hd : d = directory := hl d (by simp)
    exact .inr ⟨hd ▸ hremove, nofun⟩
  | @done d out t' h hremove =>
    have hd : d = directory := hl d (by simp)
    subst hd
    exact .inr ⟨hremove, fun _ => ⟨out, h⟩⟩

theorem Uninstalled.of_removeLine (h : Uninstalled t directory s) {t'' : FileTree}
    (h' : removeLine s.tree directory = .ok t'') :
    ∃ t', removeLine t directory = .ok t' ∧
      t''.read (attributesPath directory) = t'.read (attributesPath directory) := by
  obtain ⟨t', hremove, hread⟩ := h
  exact ⟨t', hremove, read_removeLine_removeLine hremove hread h'⟩

theorem uninstalled_attempt (h : s.tree = t ∨ Uninstalled t directory s)
    (hl : (s.attempt removeFilter g).2.Locates directory) :
    (s.attempt removeFilter g).2.tree = t ∨
      Uninstalled t directory (s.attempt removeFilter g).2 := by
  obtain ⟨e, -, htree⟩ | ⟨hremove, -⟩ := attempt_removeFilter_cases hl
  · rcases h with h | ⟨t', hremove, hread⟩
    · exact .inl (htree.trans h)
    · exact .inr ⟨t', hremove, by rw [Trail.attributes, htree, ← hread, Trail.attributes]⟩
  · rcases h with rfl | h
    · exact .inr ⟨_, hremove, rfl⟩
    · exact .inr (h.of_removeLine hremove)

theorem uninstalled_of_ok (h : s.tree = t ∨ Uninstalled t directory s)
    (hl : (s.attempt removeFilter g).2.Locates directory)
    (hok : (s.attempt removeFilter g).1 = .ok ()) :
    Uninstalled t directory (s.attempt removeFilter g).2 := by
  obtain ⟨e, herror, -⟩ | ⟨hremove, -⟩ := attempt_removeFilter_cases hl
  · rw [hok] at herror
    cases herror
  · rcases h with rfl | h
    · exact ⟨_, hremove, rfl⟩
    · exact h.of_removeLine hremove

theorem uninstalled_attempts {before : List Git}
    (hl : ((Trail.mk t []).attempts removeFilter (before ++ [g])).Locates directory)
    (hok : (((Trail.mk t []).attempts removeFilter before).attempt removeFilter g).1 = .ok ()) :
    Uninstalled t directory ((Trail.mk t []).attempts removeFilter (before ++ [g])) := by
  rw [Trail.attempts_append] at hl ⊢
  have hbefore : ((Trail.mk t []).attempts removeFilter before).tree = t ∨
      Uninstalled t directory ((Trail.mk t []).attempts removeFilter before) :=
    Trail.attempts_preserve (P := fun s => s.tree = t ∨ Uninstalled t directory s)
      uninstalled_attempt (.inl rfl) hl.of_attempt
  exact uninstalled_of_ok hbefore hl hok

theorem succeeds_removeFilter {t' : FileTree}
    (hl : (s.attempt removeFilter g).2.Locates directory)
    (hok : (s.attempt removeFilter g).1 = .ok ()) (hremove : removeLine t directory = .ok t') :
    ∃ s₁, (Trail.mk t []).Succeeds removeFilter directory s₁ := by
  obtain ⟨e, herror, -⟩ | ⟨-, hanswers⟩ := attempt_removeFilter_cases hl
  · rw [hok] at herror
    cases herror
  · obtain ⟨out, hanswers⟩ := hanswers hok
    refine ⟨_, g, (), attempt_removeFilter hanswers hremove, ?_⟩
    intro d hd
    simpa [locateCall, dropCall] using hd

theorem Trail.Succeeds.uninstalled (h : (Trail.mk t []).Succeeds removeFilter directory s) :
    Uninstalled t directory s := by
  obtain ⟨g, _, hattempt, hl⟩ := h
  have hs : ((Trail.mk t []).attempt removeFilter g).2 = s := by rw [hattempt]
  rw [← hs] at hl ⊢
  exact uninstalled_of_ok (.inl rfl) hl (by rw [hattempt])

theorem Uninstalled.eq (h : Uninstalled t directory s) (h' : Uninstalled t directory s') :
    s.attributes directory = s'.attributes directory := by
  obtain ⟨t', hremove, hread⟩ := h
  obtain ⟨t'', hremove', hread'⟩ := h'
  rw [hremove, Except.ok.injEq] at hremove'
  rw [hread, hread', hremove']

end Remove

theorem tree_of_addFilter_error {e : FilterError} (h : (s.attempt (addFilter c) g).1 = .error e) :
    (s.attempt (addFilter c) g).2.tree = s.tree := by
  by_cases hc : c.Valid
  case neg => rw [attempt_addFilter_of_not_valid hc]
  have hattempt := addAttempt hc g s
  generalize s.attempt (addFilter c) g = x at hattempt h ⊢
  obtain ⟨result, s'⟩ := x
  cases hattempt with
  | done => cases h
  | _ => rfl

/-- Attempts to add the filter that fail leave the attributes file as it is. Once an attempt has
succeeded, the file and the stored command are what one successful attempt makes of the files of the
beginning, and they stay so. Attempts to remove the filter may take the line out and fail, but when
one succeeds the file is what one successful removal makes of the beginning. -/
theorem attempts_settle (c : Config) (t : FileTree) (directory : String) :
    (∀ (s : Trail) (g : Git) (e : FilterError), (s.attempt (addFilter c) g).1 = .error e →
      (s.attempt (addFilter c) g).2.attributes directory = s.attributes directory) ∧
      (∀ (before : List Git) (g : Git) (after : List Git) (added : Bool),
        ((Trail.mk t []).attempts (addFilter c) (before ++ g :: after)).Locates directory →
        (((Trail.mk t []).attempts (addFilter c) before).attempt (addFilter c) g).1 = .ok added →
        (∃ s₁, (Trail.mk t []).Succeeds (addFilter c) directory s₁) ∧
          ∀ s₁, (Trail.mk t []).Succeeds (addFilter c) directory s₁ →
            ((Trail.mk t []).attempts (addFilter c) (before ++ g :: after)).attributes directory =
                s₁.attributes directory ∧
              ((Trail.mk t []).attempts (addFilter c) (before ++ g :: after)).command =
                s₁.command ∧
              s₁.command = some c.filterCommand) ∧
      ∀ (before : List Git) (g : Git),
        ((Trail.mk t []).attempts removeFilter (before ++ [g])).Locates directory →
        (((Trail.mk t []).attempts removeFilter before).attempt removeFilter g).1 = .ok () →
        (∃ s₁, (Trail.mk t []).Succeeds removeFilter directory s₁) ∧
          ∀ s₁, (Trail.mk t []).Succeeds removeFilter directory s₁ →
            ((Trail.mk t []).attempts removeFilter (before ++ [g])).attributes directory =
              s₁.attributes directory := by
  refine ⟨fun s g e h => ?_, fun before g after added hl hok => ⟨?_, fun s₁ hs₁ => ?_⟩,
    fun before g hl hok => ⟨?_, fun s₁ hs₁ => ?_⟩⟩
  · rw [Trail.attributes, tree_of_addFilter_error h, Trail.attributes]
  · obtain ⟨added', hline⟩ := (installed_attempts hl hok).line
    rw [Trail.attempts_append] at hl
    exact succeeds_addFilter (.of_attempts hl) hok hline
  · obtain ⟨htree, hcommand⟩ := (installed_attempts hl hok).eq hs₁.installed
    exact ⟨by rw [Trail.attributes, htree, Trail.attributes], hcommand, hs₁.installed.command⟩
  · obtain ⟨t', hremove, -⟩ := uninstalled_attempts hl hok
    rw [Trail.attempts_append] at hl
    exact succeeds_removeFilter hl hok hremove
  · exact (uninstalled_attempts hl hok).eq hs₁.uninstalled

/-- A git that does what the first call asks and fails at the second. -/
def interrupted : Git := .present [none, some { code := some 128 }]

def routed (text : String) : FileTree where
  nodes := [([".git"], .directory), ([".git", "info"], .directory),
    ([".git", "info", "attributes"], .file (Utf8.encode text))]
  current := []

theorem ok_of_toOption {ε α : Type} {x : Except ε α} {a : α} (h : x.toOption = some a) :
    x = .ok a := by
  cases x with
  | error e => cases h
  | ok b => exact congrArg _ (Option.some.inj h)

theorem attempts_settle_interrupted :
    (∃ s₁, (Trail.mk (routed "*.csv text") []).Succeeds (addFilter {}) ".git" s₁ ∧
      ((Trail.mk (routed "*.csv text") []).attempts (addFilter {})
        ([.missing, interrupted] ++ .present [] :: [interrupted])).attributes ".git" =
          s₁.attributes ".git" ∧
      s₁.command = some "nb-clean clean") ∧
      ∃ s₁, (Trail.mk (routed "*.csv text\n*.ipynb filter=nb-clean\n") []).Succeeds
          removeFilter ".git" s₁ ∧
        ((Trail.mk (routed "*.csv text\n*.ipynb filter=nb-clean\n") []).attempts removeFilter
          ([interrupted, .missing] ++ [.present []])).attributes ".git" = s₁.attributes ".git" := by
  obtain ⟨-, hadd, -⟩ := attempts_settle {} (routed "*.csv text") ".git"
  obtain ⟨⟨s₁, hs₁⟩, hsettled⟩ := hadd [.missing, interrupted] (.present []) [interrupted] true
    (by decide +kernel) (ok_of_toOption (by decide +kernel))
  obtain ⟨hattributes, -, hcommand⟩ := hsettled s₁ hs₁
  obtain ⟨-, -, hremove⟩ :=
    attempts_settle {} (routed "*.csv text\n*.ipynb filter=nb-clean\n") ".git"
  obtain ⟨⟨s₂, hs₂⟩, hsettled'⟩ := hremove [interrupted, .missing] (.present [])
    (by decide +kernel) (ok_of_toOption (by decide +kernel))
  refine ⟨⟨s₁, hs₁, hattributes, ?_⟩, s₂, hs₂, hsettled' s₂ hs₂⟩
  rw [hcommand]
  decide +kernel

end Repository

end NotebookCleaning.Command
