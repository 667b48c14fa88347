import NotebookCleaning.Proofs.CleanedFiles
import NotebookCleaning.Proofs.CleanedText
import NotebookCleaning.Proofs.Same
import NotebookCleaning.Proofs.Soundness

/-!
# Files that cleaning leaves as they are

A file is settled if its text is that of a notebook which cleaning does not change. Cleaning a file
settles it and keeps every settled file settled, under whatever other path it is known
(`advance_cleanInput`), and a settled file is neither written nor complained about. So after a run
without failures a check finds nothing and a second run does nothing (`check_after_clean`).
-/

namespace NotebookCleaning

open FileTree

namespace Notebook

variable {c : Config} {nb : Notebook} {text : String}

/-- Cleaning does not change the notebook, and it is read back from its text. -/
structure Settled (c : Config) (nb : Notebook) : Prop where
  read : ofText? nb.text = .ok nb
  clean : nb.clean c = .ok nb

theorem settled_cleaned (hc : c.Valid) (hread : ofText? text = .ok nb)
    (h : (nb.cleaned c).Unmistakable) : (nb.cleaned c).Settled c where
  read := ofText?_text_iff.mpr ((legible_cleaned_iff (legible_of_ofOctets? hread)).mpr h)
  clean := clean_eq_ok_iff.mpr ⟨hc, cleaned_cleaned c nb⟩

theorem Settled.cleaned (h : nb.Settled c) : nb.cleaned c = nb := (clean_eq_ok_iff.mp h.clean).2

theorem Settled.unmistakable (h : nb.Settled c) : nb.Unmistakable :=
  unmistakable_of_legible (Json.legible_obj_iff.mp (ofText?_text_iff.mp h.read))

theorem Settled.same_self (h : nb.Settled c) : nb.same nb :=
  Json.same_refl (distinctKeys_of_ofOctets? h.read)

theorem Settled.check (h : nb.Settled c) : nb.check c = .ok [] := by
  obtain ⟨hc, hcleaned⟩ := clean_eq_ok_iff.mp h.clean
  rw [check_of_valid hc, ← hcleaned, findings_cleaned]

end Notebook

namespace Command

variable {c : Config} {s s' s'' : Sources} {p q : Path} {nb : Notebook} {ps : List Path}

/-- The path leads to the text of a settled notebook. -/
def SettledAt (c : Config) (s : Sources) (p : Path) : Prop :=
  ∃ nb : Notebook, nb.Settled c ∧ s.tree.readText p = .ok nb.text

/-- If the path gives a notebook, what cleaning makes of it can be read back. -/
def ClearAt (c : Config) (s : Sources) (p : Path) : Prop :=
  ∀ nb, (Input.file p).notebook s = .ok nb → (nb.cleaned c).Unmistakable

theorem notebook_of_settled (h : nb.Settled c) (htext : s.tree.readText p = .ok nb.text) :
    (Input.file p).notebook s = .ok nb := by
  obtain ⟨l, hfind⟩ := find_of_read (readText_eq_ok_iff.mp htext)
  rw [Input.notebook_of_find hfind, h.read]
  rfl

theorem SettledAt.clearAt (h : SettledAt c s p) : ClearAt c s p := by
  obtain ⟨nb, hsettled, htext⟩ := h
  intro nb' hnb'
  rw [notebook_of_settled hsettled htext] at hnb'
  cases hnb'
  rw [hsettled.cleaned]
  exact hsettled.unmistakable

theorem settledAt_congr (h : s'.tree.read p = s.tree.read p) :
    SettledAt c s' p ↔ SettledAt c s p := by
  have htext : s'.tree.readText p = s.tree.readText p := by rw [readText, h, readText]
  rw [SettledAt, htext, SettledAt]

theorem clearAt_congr (h : s'.tree.read p = s.tree.read p) : ClearAt c s' p ↔ ClearAt c s p := by
  rw [ClearAt, Input.notebook_congr h, ClearAt]

/-- What the cleaning of files never undoes. -/
structure Advance (c : Config) (s s' : Sources) : Prop where
  outline : s'.tree.outline = s.tree.outline
  settledAt : ∀ p, SettledAt c s p → SettledAt c s' p
  clearAt : ∀ p, ClearAt c s p → ClearAt c s' p

theorem Advance.refl (c : Config) (s : Sources) : Advance c s s :=
  ⟨rfl, fun _ h => h, fun _ h => h⟩

theorem Advance.trans (h : Advance c s s') (h' : Advance c s' s'') : Advance c s s'' where
  outline := h'.outline.trans h.outline
  settledAt p hp := h'.settledAt p (h.settledAt p hp)
  clearAt p hp := h'.clearAt p (h.clearAt p hp)

/-- Replacing a file by the text of a settled notebook settles every path that leads to it and
leaves what the other paths read. -/
theorem advance_of_replaced {t' : FileTree} {l : Location}
    (h : s.tree.Replaced t' l (Utf8.encode nb.text)) (hnb : nb.Settled c) :
    Advance c s { s with tree := t' } ∧
      ∀ p, s.tree.file? p = some l → SettledAt c { s with tree := t' } p := by
  have hhere : ∀ p, s.tree.file? p = some l → SettledAt c { s with tree := t' } p := by
    intro p hp
    have hp' : t'.file? p = some l := by rw [file?_eq_of_outline_eq h.outline, hp]
    exact ⟨nb, hnb, readText_eq_ok_iff.mpr (read_of_get? hp' h.get?_self)⟩
  have helsewhere : ∀ p, s.tree.file? p ≠ some l → t'.read p = s.tree.read p := by
    intro p hp
    refine read_congr h.outline fun m hm => h.get?_of_ne m ?_
    rintro rfl
    exact hp hm
  refine ⟨⟨h.outline, fun p hsettled => ?_, fun p hclear => ?_⟩, hhere⟩
  · by_cases hp : s.tree.file? p = some l
    · exact hhere p hp
    · exact (settledAt_congr (helsewhere p hp)).mpr hsettled
  · by_cases hp : s.tree.file? p = some l
    · exact (hhere p hp).clearAt
    · exact (clearAt_congr (helsewhere p hp)).mpr hclear

/-- Cleaning a file that can be cleaned settles it. -/
theorem advance_cleanInput (hp : ClearAt c s p) {r : Cleaned} {t' : FileTree}
    (h : cleanInput c s (.file p) = (r, t')) :
    Advance c s { s with tree := t' } ∧
      (r.isFailure = false → SettledAt c { s with tree := t' } p) := by
  cases hnb : (Input.file p).notebook s with
  | error e =>
    rw [cleanInput_of_error c hnb] at h
    cases h
    exact ⟨.refl c s, nofun⟩
  | ok nb =>
    cases hafter : nb.clean c with
    | error e =>
      rw [cleanInput_of_invalid hnb hafter] at h
      cases h
      exact ⟨.refl c s, nofun⟩
    | ok after =>
      have hc : c.Valid := (Notebook.clean_eq_ok_iff.mp hafter).1
      obtain ⟨l, action, t₁, hl, hclean, -, hreplaced⟩ := cleanInput_of_ok hc hnb
      rw [hclean] at h
      cases h
      obtain ⟨l', text, -, hread⟩ := Input.exists_of_notebook_file hnb
      have hsettled := Notebook.settled_cleaned hc hread (hp nb hnb)
      obtain ⟨hadvance, hhere⟩ := advance_of_replaced hreplaced hsettled
      exact ⟨hadvance, fun _ => hhere p hl⟩

/-- A run without failures settles all of its files, whichever of them are the same. -/
theorem advance_cleanInputs (hps : ∀ p ∈ ps, ClearAt c s p) {rs : List Cleaned} {t' : FileTree}
    (h : cleanInputs c s (ps.map .file) = (rs, t')) :
    Advance c s { s with tree := t' } ∧
      (rs.any Cleaned.isFailure = false → ∀ p ∈ ps, SettledAt c { s with tree := t' } p) := by
  induction ps generalizing s rs with
  | nil =>
    cases h
    exact ⟨.refl c s, nofun⟩
  | cons p ps ih =>
    rw [List.map_cons, cleanInputs] at h
    obtain ⟨⟨r, t₁⟩, hstep⟩ : ∃ x, cleanInput c s (.file p) = x := ⟨_, rfl⟩
    obtain ⟨⟨rs₁, t₂⟩, hrest⟩ :
      ∃ x, cleanInputs c { s with tree := t₁ } (ps.map .file) = x := ⟨_, rfl⟩
    simp only [hstep, hrest] at h
    cases h
    obtain ⟨hfirst, hp⟩ := advance_cleanInput (hps p List.mem_cons_self) hstep
    obtain ⟨hlater, hps'⟩ :=
      ih (fun q hq => hfirst.clearAt q (hps q (List.mem_cons_of_mem p hq))) hrest
    refine ⟨hfirst.trans hlater, fun hany q hq => ?_⟩
    rw [List.any_cons, Bool.or_eq_false_iff] at hany
    rcases List.mem_cons.mp hq with rfl | hq
    · exact hlater.settledAt q (hp hany.1)
    · exact hps' hany.2 q hq

theorem cleanInput_of_settledAt (h : SettledAt c s p) :
    ∃ nb, cleanInput c s (.file p) = (⟨.file p, .ok (nb, .kept)⟩, s.tree) := by
  obtain ⟨nb, hsettled, htext⟩ := h
  have hstore : store s.tree p nb nb = (.kept, s.tree) := by
    rw [store, hsettled.same_self, htext]
    exact if_pos (by simp [Except.toOption])
  exact ⟨nb, cleanInput_of_store (notebook_of_settled hsettled htext) hsettled.clean hstore⟩

theorem cleanInputs_of_settledAt (h : ∀ p ∈ ps, SettledAt c s p) :
    ∃ rs, cleanInputs c s (ps.map .file) = (rs, s.tree) ∧ rs.any Cleaned.isFailure = false := by
  induction ps with
  | nil => exact ⟨[], rfl, rfl⟩
  | cons p ps ih =>
    obtain ⟨nb, hstep⟩ := cleanInput_of_settledAt (h p List.mem_cons_self)
    obtain ⟨rs, hrest, hany⟩ := ih fun q hq => h q (List.mem_cons_of_mem p hq)
    refine ⟨⟨.file p, .ok (nb, .kept)⟩ :: rs, ?_, ?_⟩
    · rw [List.map_cons, cleanInputs]
      simp only [hstep, hrest]
    · rw [List.any_cons, hany]
      rfl

theorem ofInput_of_settledAt (h : SettledAt c s p) :
    ∃ nb, Checked.ofInput c s (.file p) = ⟨.file p, .ok (nb, [])⟩ := by
  obtain ⟨nb, hsettled, htext⟩ := h
  exact ⟨nb, Checked.ofInput_of_ok (notebook_of_settled hsettled htext) hsettled.check⟩

theorem runCheck_of_settledAt {paths : List Path} (hpaths : paths ≠ [])
    (h : ∀ p ∈ s.tree.resolve paths, SettledAt c s p) :
    (∀ r ∈ checkAll c s paths, ∃ nb, r.result = .ok (nb, [])) ∧
      ∀ v, (∀ json, (runCheck v c json s paths).exit = 0) ∧
        (runCheck v c false s paths).stdout = "" := by
  have hresults : ∀ r ∈ checkAll c s paths, ∃ nb, r.result = .ok (nb, []) := by
    intro r hr
    rw [checkAll, inputs_eq_map hpaths, List.map_map] at hr
    obtain ⟨p, hp, rfl⟩ := List.mem_map.mp hr
    obtain ⟨nb, hnb⟩ := ofInput_of_settledAt (h p hp)
    exact ⟨nb, congrArg Checked.result hnb⟩
  have hclean : (checkAll c s paths).all Checked.isClean := by
    refine List.all_eq_true.mpr fun r hr => ?_
    obtain ⟨nb, hnb⟩ := hresults r hr
    rw [Checked.isClean, hnb]
    rfl
  refine ⟨hresults, fun v => ⟨fun json => ?_, ?_⟩⟩
  · cases json <;> exact if_pos hclean
  · have hlines : ∀ r ∈ checkAll c s paths, r.lines v = "" := by
      intro r hr
      obtain ⟨nb, hnb⟩ := hresults r hr
      rw [Checked.lines, hnb]
      rfl
    rw [runCheck, List.map_congr_left hlines]
    exact join_map_empty _

theorem runClean_of_settledAt (v : Voice) {paths : List Path} (hpaths : paths ≠ [])
    (h : ∀ p ∈ s.tree.resolve paths, SettledAt c s p) :
    ∃ out, runClean v c s paths = (out, s.tree) ∧ out.exit = 0 := by
  obtain ⟨rs, hinputs, hany⟩ := cleanInputs_of_settledAt h
  refine ⟨_, runClean_of_cleanInputs v hpaths hinputs, ?_⟩
  rw [hany]
  rfl

/-- After a run without failures the check of the same paths succeeds and finds nothing, and the
second run succeeds and leaves the tree as it is, down to the record of what has been written. Where
two paths lead to one file, both agree on it. -/
theorem check_after_clean {v : Voice} {paths : List Path} (hpaths : paths ≠ [])
    (hkeys : ∀ p ∈ s.tree.resolve paths, ∀ nb, (Input.file p).notebook s = .ok nb →
      ∀ o, .obj o ∈ nb.filteredValues → Json.Reader.numberKey ∉ Object.keys o)
    {out : Output} {t' : FileTree} (hrun : runClean v c s paths = (out, t'))
    (hexit : out.exit = 0) :
    (∀ r ∈ checkAll c { s with tree := t' } paths, ∃ nb, r.result = .ok (nb, [])) ∧
      (∀ v', (∀ json, (runCheck v' c json { s with tree := t' } paths).exit = 0) ∧
        (runCheck v' c false { s with tree := t' } paths).stdout = "") ∧
      ∀ v', ∃ out', runClean v' c { s with tree := t' } paths = (out', t') ∧ out'.exit = 0 := by
  have hclear : ∀ p ∈ s.tree.resolve paths, ClearAt c s p :=
    fun p hp nb hnb => Notebook.unmistakable_cleaned (hkeys p hp nb hnb) c
  obtain ⟨⟨rs, t₁⟩, hinputs⟩ :
    ∃ x, cleanInputs c s ((s.tree.resolve paths).map .file) = x := ⟨_, rfl⟩
  rw [runClean_of_cleanInputs v hpaths hinputs] at hrun
  cases hrun
  obtain ⟨hadvance, hsettled⟩ := advance_cleanInputs hclear hinputs
  have hany : rs.any Cleaned.isFailure = false := by simpa using hexit
  have hresolve : t'.resolve paths = s.tree.resolve paths :=
    resolve_eq_of_outline_eq hadvance.outline paths
  have hall : ∀ p ∈ t'.resolve paths, SettledAt c { s with tree := t' } p := by
    rw [hresolve]
    exact hsettled hany
  obtain ⟨hresults, hcheck⟩ := runCheck_of_settledAt (s := { s with tree := t' }) hpaths hall
  exact ⟨hresults, hcheck,
    fun v' => runClean_of_settledAt (s := { s with tree := t' }) v' hpaths hall⟩

/-- A notebook in a directory. -/
def shelvedSources : Sources where
  standard := []
  tree := {
    nodes := [(["books"], .directory), (["books", "a.ipynb"], .file (Utf8.encode countedText))]
    current := [] }

/-- The directory, and the notebook in it once more. -/
def shelvedPaths : List Path := [⟨"books/a.ipynb"⟩, ⟨"books"⟩]

theorem check_after_clean_shelved :
    ∃ out t', runClean ⟨0, false⟩ {} shelvedSources shelvedPaths = (out, t') ∧ out.exit = 0 ∧
      t'.written = [["books", "a.ipynb"]] ∧
      (∀ v,
        (∀ json, (runCheck v {} json { shelvedSources with tree := t' } shelvedPaths).exit = 0) ∧
        (runCheck v {} false { shelvedSources with tree := t' } shelvedPaths).stdout = "") ∧
      ∀ v, ∃ out', runClean v {} { shelvedSources with tree := t' } shelvedPaths = (out', t') ∧
        out'.exit = 0 := by
  have hpaths : shelvedPaths ≠ [] := by decide
  have hresolve : shelvedSources.tree.resolve shelvedPaths = [⟨"books/a.ipynb"⟩] := by
    decide +kernel
  have hkeys : ∀ p ∈ shelvedSources.tree.resolve shelvedPaths, ∀ nb,
      (Input.file p).notebook shelvedSources = .ok nb →
        ∀ o, .obj o ∈ nb.filteredValues → Json.Reader.numberKey ∉ Object.keys o := by
    intro p hp nb hnb o ho
    rw [hresolve, List.mem_singleton] at hp
    subst hp
    have hread : (Input.file ⟨"books/a.ipynb"⟩).notebook shelvedSources = .ok countedNotebook := rfl
    rw [hread] at hnb
    cases hnb
    cases ho
  have hexit : (runClean ⟨0, false⟩ {} shelvedSources shelvedPaths).1.exit = 0 := by decide +kernel
  have hwritten : (runClean ⟨0, false⟩ {} shelvedSources shelvedPaths).2.written =
      [["books", "a.ipynb"]] := by decide +kernel
  obtain ⟨⟨out, t'⟩, hrun⟩ :
    ∃ x, runClean ⟨0, false⟩ {} shelvedSources shelvedPaths = x := ⟨_, rfl⟩
  rw [hrun] at hexit hwritten
  obtain ⟨-, hcheck, hagain⟩ := check_after_clean hpaths hkeys hrun hexit
  exact ⟨out, t', hrun, hexit, hwritten, hcheck, hagain⟩

end Command

end NotebookCleaning
