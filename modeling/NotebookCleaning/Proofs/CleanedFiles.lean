import Mathlib.Data.List.Pairwise
import NotebookCleaning.Command.Clean
import NotebookCleaning.Proofs.CleanedDocument
import NotebookCleaning.Proofs.Outline
import NotebookCleaning.Proofs.PrintedLines

/-!
# Cleaning files one after the other

Cleaning a file replaces its content or leaves everything as it is, and never changes the outline of
the tree (`cleanInput_of_ok`, `cleanInput_of_error`). So paths that lead to different files are
cleaned apart from each other: what the run makes of a file is what it makes of this file alone, and
an input that gives no notebook is reported once and touches nothing (`runClean_apart`).
-/

namespace NotebookCleaning

open FileTree

namespace Input

variable {s s' : Sources} {p : Path} {nb : Notebook}

theorem notebook_of_find {l : Location} {text : String}
    (hfind : s.tree.find p = .node l (.file (Utf8.encode text))) :
    (file p).notebook s = (Notebook.ofText? text).mapError .unusable := by
  have hread : s.tree.readText p = .ok text := readText_eq_ok_iff.mpr (read_of_find hfind)
  have htext : (file p).text s = .ok text := hread
  rw [notebook, htext]

/-- A path gives a notebook if it leads to a file whose text is one. -/
theorem exists_of_notebook_file (h : (file p).notebook s = .ok nb) :
    ∃ l text, s.tree.find p = .node l (.file (Utf8.encode text)) ∧
      Notebook.ofText? text = .ok nb := by
  cases htext : (file p).text s with
  | error e =>
    rw [notebook, htext] at h
    cases h
  | ok text =>
    obtain ⟨l, hfind⟩ := find_of_read (readText_eq_ok_iff.mp htext)
    rw [notebook_of_find hfind] at h
    refine ⟨l, text, hfind, ?_⟩
    cases hnb : Notebook.ofText? text with
    | error e =>
      rw [hnb] at h
      cases h
    | ok nb' =>
      rw [hnb] at h
      cases h
      rfl

theorem notebook_congr (h : s'.tree.read p = s.tree.read p) :
    (file p).notebook s' = (file p).notebook s := by
  have htext : s'.tree.readText p = s.tree.readText p := by rw [readText, h, readText]
  rw [notebook, notebook, Input.text, Input.text, htext]

end Input

namespace Command

variable {c : Config} {s : Sources} {t : FileTree} {p : Path} {l : Location} {nb : Notebook}

theorem cleanInput_of_error {i : Input} {e : InputError} (c : Config)
    (h : i.notebook s = .error e) : cleanInput c s i = (⟨i, .error e⟩, s.tree) := by
  rw [cleanInput, h]

theorem cleanInput_of_invalid {i : Input} {e : Error} (hnb : i.notebook s = .ok nb)
    (hclean : nb.clean c = .error e) :
    cleanInput c s i = (⟨i, .error (.unusable e)⟩, s.tree) := by
  rw [cleanInput, hnb]
  simp only [hclean]

/-- A notebook is stored at the path of a file by replacing its content, unless it is there. -/
theorem store_of_find {content : List UInt8} (h : t.find p = .node l (.file content))
    (original cleaned : Notebook) : ∃ action t', store t p original cleaned = (action, t') ∧
      (action = .kept ∨ action = .written) ∧ t.Replaced t' l (Utf8.encode cleaned.text) := by
  unfold store
  split
  · next hkept =>
    have hread : t.readText p = .ok cleaned.text := by
      simp only [Bool.and_eq_true, decide_eq_true_eq] at hkept
      cases htext : t.readText p with
      | error e => simp [htext, Except.toOption] at hkept
      | ok text => simpa [htext, Except.toOption] using hkept.2
    have hcontent : content = Utf8.encode cleaned.text := by
      simpa [read_of_find h] using readText_eq_ok_iff.mp hread
    have hget := get?_of_find h
    rw [hcontent] at hget
    exact ⟨_, _, rfl, .inl rfl, .refl hget⟩
  · rw [write_of_find h]
    exact ⟨_, _, rfl, .inr rfl, replaced_writeAt (get?_of_find h)⟩

theorem cleanInput_of_store {after : Notebook} {action : CleanAction} {t' : FileTree}
    (hnb : (Input.file p).notebook s = .ok nb) (hafter : nb.clean c = .ok after)
    (hstore : store s.tree p nb after = (action, t')) :
    cleanInput c s (.file p) = (⟨.file p, .ok (nb, action)⟩, t') := by
  rw [cleanInput, hnb]
  simp only [hafter, hstore]

theorem cleanInput_of_ok (hc : c.Valid) (h : (Input.file p).notebook s = .ok nb) :
    ∃ l action t', s.tree.file? p = some l ∧
      cleanInput c s (.file p) = (⟨.file p, .ok (nb, action)⟩, t') ∧
      (action = .kept ∨ action = .written) ∧
      s.tree.Replaced t' l (Utf8.encode (nb.cleaned c).text) := by
  obtain ⟨l, text, hfind, -⟩ := Input.exists_of_notebook_file h
  obtain ⟨action, t', hstore, haction, hreplaced⟩ := store_of_find hfind nb (nb.cleaned c)
  exact ⟨l, action, t', file?_eq_some_iff.mpr ⟨_, hfind⟩,
    cleanInput_of_store h (Notebook.clean_of_valid hc nb) hstore, haction, hreplaced⟩

/-- What cleaning says of a path depends on the outline and on what is read at the path. -/
theorem report_congr {s' : Sources} (houtline : s'.tree.outline = s.tree.outline)
    (hfile : ∀ l, s.tree.file? p = some l → s'.tree.get? l = s.tree.get? l) :
    (cleanInput c s' (.file p)).1 = (cleanInput c s (.file p)).1 := by
  have hread : s'.tree.read p = s.tree.read p := read_congr houtline hfile
  have hnotebook := Input.notebook_congr hread
  cases hnb : (Input.file p).notebook s with
  | error e => rw [cleanInput_of_error c hnb, cleanInput_of_error c (hnotebook.trans hnb)]
  | ok nb =>
    have hstore (original cleaned : Notebook) :
        (store s'.tree p original cleaned).1 = (store s.tree p original cleaned).1 := by
      have hwritten {s : Sources} (hnb : (Input.file p).notebook s = .ok nb) :
          ∃ t', s.tree.write p (Utf8.encode cleaned.text) = .ok t' := by
        obtain ⟨l, text, hfind, -⟩ := Input.exists_of_notebook_file hnb
        exact ⟨_, write_of_find hfind⟩
      obtain ⟨t₁, ht₁⟩ := hwritten hnb
      obtain ⟨t₂, ht₂⟩ := hwritten (hnotebook.trans hnb)
      unfold store
      rw [readText, hread, ← readText, ht₁, ht₂]
      split <;> rfl
    cases hafter : nb.clean c with
    | error e =>
      rw [cleanInput_of_invalid hnb hafter, cleanInput_of_invalid (hnotebook.trans hnb) hafter]
    | ok after =>
      rw [cleanInput_of_store hnb hafter (Prod.eta _).symm,
        cleanInput_of_store (hnotebook.trans hnb) hafter (Prod.eta _).symm, hstore]

/-- What a run over paths has done, said for each path and each location on its own. -/
structure Apart (c : Config) (s : Sources) (ps : List Path) (rs : List Cleaned)
    (t' : FileTree) : Prop where
  outline : t'.outline = s.tree.outline
  cleaned : ∀ p ∈ ps, ∀ nb l, (Input.file p).notebook s = .ok nb → s.tree.file? p = some l →
    t'.get? l = some (.file (Utf8.encode (nb.cleaned c).text))
  others : ∀ l, (∀ p ∈ ps, ∀ nb, (Input.file p).notebook s = .ok nb → s.tree.file? p ≠ some l) →
    t'.get? l = s.tree.get? l
  reports : rs = ps.map fun p => (cleanInput c s (.file p)).1

theorem Apart.cons_error {ps : List Path} {rs : List Cleaned} {t' : FileTree} {e : InputError}
    (h : (Input.file p).notebook s = .error e) (hps : Apart c s ps rs t') :
    Apart c s (p :: ps) ((cleanInput c s (.file p)).1 :: rs) t' where
  outline := hps.outline
  cleaned := by
    intro q hq nb l hnb hl
    rcases List.mem_cons.mp hq with rfl | hq
    · rw [h] at hnb
      cases hnb
    · exact hps.cleaned q hq nb l hnb hl
  others l hl := hps.others l fun q hq => hl q (List.mem_cons_of_mem _ hq)
  reports := by rw [List.map_cons, hps.reports]

/-- The run goes on in a tree in which one file, to which no other path leads, has been replaced. -/
theorem Apart.cons_ok {ps : List Path} {rs : List Cleaned} {t₁ t' : FileTree}
    (h : (Input.file p).notebook s = .ok nb) (hp : s.tree.file? p = some l)
    (hreplaced : s.tree.Replaced t₁ l (Utf8.encode (nb.cleaned c).text))
    (hother : ∀ q ∈ ps, s.tree.file? q ≠ some l) (hps : Apart c { s with tree := t₁ } ps rs t') :
    Apart c s (p :: ps) ((cleanInput c s (.file p)).1 :: rs) t' := by
  have hfile (q : Path) : t₁.file? q = s.tree.file? q := file?_eq_of_outline_eq hreplaced.outline q
  have hget : ∀ q ∈ ps, ∀ m, s.tree.file? q = some m → t₁.get? m = s.tree.get? m := by
    intro q hq m hm
    refine hreplaced.get?_of_ne m ?_
    rintro rfl
    exact hother q hq hm
  have hnotebook : ∀ q ∈ ps,
      (Input.file q).notebook { s with tree := t₁ } = (Input.file q).notebook s :=
    fun q hq => Input.notebook_congr (read_congr hreplaced.outline (hget q hq))
  refine ⟨hps.outline.trans hreplaced.outline, ?_, ?_, ?_⟩
  · intro q hq nb' m hnb' hm
    rcases List.mem_cons.mp hq with rfl | hq
    · rw [h] at hnb'
      rw [hp] at hm
      cases hnb'
      cases hm
      rw [← hreplaced.get?_self]
      exact hps.others l fun q hq _ _ hl => hother q hq ((hfile q).symm.trans hl)
    · exact hps.cleaned q hq nb' m ((hnotebook q hq).trans hnb') ((hfile q).trans hm)
  · intro m hm
    have hne : m ≠ l := fun heq => hm p List.mem_cons_self nb h (heq ▸ hp)
    rw [← hreplaced.get?_of_ne m hne]
    refine hps.others m fun q hq nb' hnb' => ?_
    rw [hfile q]
    exact hm q (List.mem_cons_of_mem _ hq) nb' ((hnotebook q hq).symm.trans hnb')
  · rw [List.map_cons, hps.reports]
    exact congrArg _ (List.map_congr_left fun q hq => report_congr hreplaced.outline (hget q hq))

/-- Paths that lead to different files are cleaned apart from each other. -/
theorem apart_cleanInputs {ps : List Path} (hc : c.Valid)
    (hps : (ps.filterMap s.tree.file?).Nodup) :
    Apart c s ps (cleanInputs c s (ps.map .file)).1 (cleanInputs c s (ps.map .file)).2 := by
  induction ps generalizing s with
  | nil => exact ⟨rfl, by simp, fun _ _ => rfl, rfl⟩
  | cons p ps ih =>
    rw [List.map_cons, cleanInputs]
    cases hnb : (Input.file p).notebook s with
    | error e =>
      have hclean := cleanInput_of_error c hnb
      have hreport : (cleanInput c s (.file p)).1 = ⟨.file p, .error e⟩ := by rw [hclean]
      rw [hclean, ← hreport]
      exact .cons_error hnb (ih (hps.sublist ((List.sublist_cons_self p ps).filterMap _)))
    | ok nb =>
      obtain ⟨l, action, t₁, hp, hclean, -, hreplaced⟩ := cleanInput_of_ok hc hnb
      have hreport : (cleanInput c s (.file p)).1 = ⟨.file p, .ok (nb, action)⟩ := by rw [hclean]
      rw [List.filterMap_cons_some hp, List.nodup_cons] at hps
      have hfiles : t₁.file? = s.tree.file? := funext (file?_eq_of_outline_eq hreplaced.outline)
      rw [hclean, ← hreport]
      refine .cons_ok hnb hp hreplaced (fun q hq hl => ?_) (ih ?_)
      · exact hps.1 (List.mem_filterMap.mpr ⟨q, hq, hl⟩)
      · rw [hfiles]
        exact hps.2

section Report

variable {v : Voice}

/-- The line that reports a path that gives no notebook. -/
def errorReport (color : Bool) (s : Sources) (p : Path) : String :=
  match (Input.file p).notebook s with
  | .error e => errorText color p.text ((Input.file p).explain e)
  | .ok _ => ""

/-- What is logged while the notebook of a path is cleaned. -/
def logged (c : Config) (s : Sources) (p : Path) : List Event :=
  match (cleanInput c s (.file p)).1.result with
  | .ok (nb, action) => Cleaned.cleaningEvents c nb ++ Cleaned.storingEvents (.file p) action
  | .error _ => []

/-- What is logged is no warning, and no name of a value changes the colour. -/
theorem of_mem_logged {e : Event} (h : e ∈ logged c s p) :
    e.level ≠ .warn ∧ ∀ value ∈ e.values, '\x1b' ∉ value.1.toList := by
  unfold logged at h
  split at h
  · rcases List.mem_append.mp h with h | h
    · rcases List.mem_append.mp h with h | h
      · split at h <;> simp at h
        simp [h]
      · split at h <;> simp at h
        simp [h]
    · unfold Cleaned.storingEvents at h
      split at h <;> simp at h <;> simp [h]
  · cases h

theorem logged_lines (v : Voice) :
    (logged c s p).map (Event.line v) = (logged c s p).map (logText v) :=
  List.map_congr_left fun _ he => line_eq_logText v (of_mem_logged he).2

/-- What is printed of a path is its log and, if it gives no notebook, one error. -/
theorem stderr_report (hc : c.Valid) (v : Voice) (s : Sources) (p : Path) :
    (cleanInput c s (.file p)).1.stderr v c =
      String.join ((logged c s p).map (logText v)) ++ errorReport v.color s p := by
  rw [← logged_lines]
  cases hnb : (Input.file p).notebook s with
  | error e =>
    have hreport : errorReport v.color s p =
        errorLine v (p.text ++ ": " ++ (Input.file p).explain e) := by
      rw [errorReport, hnb, errorLine_eq v p.text (solid_explain hnb)]
    rw [hreport]
    simp only [logged, cleanInput_of_error c hnb]
    rfl
  | ok nb =>
    obtain ⟨l, action, t', -, hclean, haction, -⟩ := cleanInput_of_ok hc hnb
    simp only [errorReport, logged, hnb, hclean, Cleaned.stderr]
    rcases haction with rfl | rfl <;> rfl

theorem stdout_report (hc : c.Valid) (s : Sources) (p : Path) :
    (cleanInput c s (.file p)).1.stdout = "" := by
  cases hnb : (Input.file p).notebook s with
  | error e =>
    rw [cleanInput_of_error c hnb]
    rfl
  | ok nb =>
    obtain ⟨l, action, t', -, hclean, haction, -⟩ := cleanInput_of_ok hc hnb
    rw [hclean]
    rcases haction with rfl | rfl <;> rfl

/-- A path fails just if it gives no notebook: what can be read can be stored. -/
theorem isFailure_report_iff (hc : c.Valid) : (cleanInput c s (.file p)).1.isFailure ↔
    ∃ e, (Input.file p).notebook s = .error e := by
  cases hnb : (Input.file p).notebook s with
  | error e => simp [cleanInput_of_error c hnb, Cleaned.isFailure]
  | ok nb =>
    obtain ⟨l, action, t', -, hclean, haction, -⟩ := cleanInput_of_ok hc hnb
    rw [hclean]
    rcases haction with rfl | rfl <;> simp [Cleaned.isFailure]

end Report

theorem inputs_eq_map {paths : List Path} (h : paths ≠ []) (t : FileTree) :
    t.inputs paths = (t.resolve paths).map .file := by
  cases paths with
  | nil => exact absurd rfl h
  | cons p ps => rfl

theorem resolve_singleton (h : t.file? p = some l) : t.resolve [p] = [p] := by
  obtain ⟨content, hfind⟩ := file?_eq_some_iff.mp h
  have hexpand : t.expand p = [p] := by simp [expand, isDirectory, hfind]
  rw [resolve, List.flatMap_cons, hexpand]
  rfl

/-- If different paths of a list lead to different files, a file has one path in the list. -/
theorem eq_of_file?_eq {ps : List Path} (hps : (ps.filterMap t.file?).Nodup) {p q : Path}
    (hp : p ∈ ps) (hq : q ∈ ps) (hpl : t.file? p = some l) (hql : t.file? q = some l) : p = q := by
  have hpairs := List.pairwise_filterMap.mp hps
  have : Std.Symm fun p q => ∀ l, t.file? p = some l → ∀ m, t.file? q = some m → l ≠ m :=
    ⟨fun _ _ h m hm l hl => (h l hl m hm).symm⟩
  by_contra hne
  exact hpairs.forall hp hq hne l hpl l hql rfl

/-- Two runs apart make the same of a file to which one path of each of them leads. -/
theorem Apart.get?_eq {ps qs : List Path} {rs rs' : List Cleaned} {t₁ t₂ : FileTree}
    (hps : Apart c s ps rs t₁) (hqs : Apart c s qs rs' t₂)
    (hpsfiles : (ps.filterMap s.tree.file?).Nodup) (hqsfiles : (qs.filterMap s.tree.file?).Nodup)
    (hp : p ∈ ps) (hq : p ∈ qs) (hl : s.tree.file? p = some l) : t₁.get? l = t₂.get? l := by
  cases hnb : (Input.file p).notebook s with
  | ok nb => rw [hps.cleaned p hp nb l hnb hl, hqs.cleaned p hq nb l hnb hl]
  | error e =>
    -- No other path leads to the file, so both runs leave it as it is.
    have hother {ps : List Path} (hfiles : (ps.filterMap s.tree.file?).Nodup) (hp : p ∈ ps) :
        ∀ q ∈ ps, ∀ nb, (Input.file q).notebook s = .ok nb → s.tree.file? q ≠ some l := by
      intro q hq nb hok hql
      rw [eq_of_file?_eq hfiles hq hp hql hl, hnb] at hok
      cases hok
    rw [hps.others l (hother hpsfiles hp), hqs.others l (hother hqsfiles hq)]

theorem runClean_nil (hc : c.Valid) (v : Voice) (s : Sources) :
    runClean v c s [] = match Input.standard.notebook s with
      | .ok nb => ({
          exit := 0
          stdout := (nb.cleaned c).text
          stderr := String.join ((Cleaned.cleaningEvents c nb).map (Event.line v)) }, s.tree)
      | .error e => ({
          exit := 1
          stderr := errorText v.color "stdin" (Input.standard.explain e) }, s.tree) := by
  have hinputs : s.tree.inputs [] = [.standard] := rfl
  rw [runClean, hinputs, cleanInputs, cleanInput]
  cases hnb : Input.standard.notebook s with
  | error e =>
    simp [← errorLine_eq v "stdin" (solid_explain hnb), cleanInputs, Cleaned.isFailure,
      Cleaned.stdout, Cleaned.stderr, Cleaned.failure, Input.name]
  | ok nb =>
    simp [cleanInputs, Notebook.clean_of_valid hc, Cleaned.isFailure, Cleaned.stdout,
      Cleaned.stderr, Cleaned.failure, Cleaned.storingEvents]

theorem runClean_of_cleanInputs (v : Voice) {paths : List Path} (hpaths : paths ≠ [])
    {rs : List Cleaned} {t' : FileTree}
    (h : cleanInputs c s ((s.tree.resolve paths).map .file) = (rs, t')) :
    runClean v c s paths = ({
      exit := if rs.any Cleaned.isFailure then 1 else 0
      stdout := String.join (rs.map Cleaned.stdout)
      stderr := String.join (rs.map (Cleaned.stderr v c)) }, t') := by
  rw [runClean, inputs_eq_map hpaths, h]

theorem join_map_empty {α : Type} (xs : List α) : String.join (xs.map fun _ => "") = "" := by
  induction xs with
  | nil => rfl
  | cons x xs ih => rw [List.map_cons, String.join_cons, ih, String.empty_append]

theorem runClean_paths (hc : c.Valid) (v : Voice) {paths : List Path} (hpaths : paths ≠ [])
    (hfiles : ((s.tree.resolve paths).filterMap s.tree.file?).Nodup) :
    ∃ rs t', Apart c s (s.tree.resolve paths) rs t' ∧ runClean v c s paths = ({
      exit := if rs.any Cleaned.isFailure then 1 else 0
      stdout := ""
      stderr := String.join ((s.tree.resolve paths).map fun p =>
        String.join ((logged c s p).map (logText v)) ++ errorReport v.color s p) }, t') := by
  have hapart := apart_cleanInputs hc hfiles
  refine ⟨_, _, hapart, ?_⟩
  rw [runClean_of_cleanInputs v hpaths rfl]
  simp only [hapart.reports, List.map_map, Function.comp_def, stderr_report hc, stdout_report hc,
    join_map_empty]

theorem Apart.any_isFailure_iff {ps : List Path} {rs : List Cleaned} {t' : FileTree}
    (h : Apart c s ps rs t') (hc : c.Valid) :
    rs.any Cleaned.isFailure ↔ ∃ p ∈ ps, ∃ e, (Input.file p).notebook s = .error e := by
  simp [h.reports, isFailure_report_iff hc]

/-- Without more verbosity nothing but the errors is printed. -/
theorem join_logText_eq_empty {v : Voice} (hv : v.verbosity = 0) {es : List Event}
    (hes : ∀ e ∈ es, e.level ≠ .warn) : String.join (es.map (logText v)) = "" := by
  rw [List.map_congr_left fun e he => logText_eq_empty hv (hes e he), join_map_empty]

/-- Cleaning paths that lead to different files makes of every file what it makes of this file
alone. A path that gives no notebook is reported by one line, and no path is passed over. -/
theorem runClean_apart (hc : c.Valid) (v : Voice) (s : Sources) :
    (∀ paths, paths ≠ [] → ((s.tree.resolve paths).filterMap s.tree.file?).Nodup →
      ∃ out t', runClean v c s paths = (out, t') ∧
        (∀ p ∈ s.tree.resolve paths, ∀ nb, (Input.file p).notebook s = .ok nb →
          ∃ after, nb.clean c = .ok after ∧ t'.read p = .ok (Utf8.encode after.text)) ∧
        (∀ l, (∀ p ∈ s.tree.resolve paths, ∀ nb, (Input.file p).notebook s = .ok nb →
          s.tree.file? p ≠ some l) → t'.get? l = s.tree.get? l) ∧
        (∃ logs : Path → List Event, (∀ p, ∀ e ∈ logs p, e.level ≠ .warn) ∧
          out.stderr = String.join ((s.tree.resolve paths).map fun p =>
            String.join ((logs p).map (logText v)) ++ errorReport v.color s p)) ∧
        (v.verbosity = 0 →
          out.stderr = String.join ((s.tree.resolve paths).map (errorReport v.color s))) ∧
        out.stdout = "" ∧
        (out.exit = 1 ↔ ∃ p ∈ s.tree.resolve paths, ∃ e, (Input.file p).notebook s = .error e) ∧
        (out.exit = 0 ↔ ∀ p ∈ s.tree.resolve paths, ∃ nb, (Input.file p).notebook s = .ok nb) ∧
        ∀ p ∈ s.tree.resolve paths, ∀ l, s.tree.file? p = some l →
          t'.get? l = (runClean v c s [p]).2.get? l) ∧
    ∃ out, runClean v c s [] = (out, s.tree) ∧
      ((∃ nb after, Input.standard.notebook s = .ok nb ∧ nb.clean c = .ok after ∧
          out.exit = 0 ∧ out.stdout = after.text) ∨
        (∃ e, Input.standard.notebook s = .error e ∧
          out.stderr = errorText v.color "stdin" (Input.standard.explain e)) ∧
        out.exit = 1 ∧ out.stdout = "") := by
  constructor
  · intro paths hpaths hfiles
    obtain ⟨rs, t', hapart, hrun⟩ := runClean_paths hc v hpaths hfiles
    refine ⟨_, _, hrun, ?_, hapart.others,
      ⟨logged c s, fun p e he => (of_mem_logged he).1, rfl⟩, ?_, rfl, ?_⟩
    · intro p hp nb hnb
      obtain ⟨l, action, t₁, hl, -⟩ := cleanInput_of_ok hc hnb
      refine ⟨nb.cleaned c, Notebook.clean_of_valid hc nb, read_of_get? (l := l) ?_ ?_⟩
      · rw [file?_eq_of_outline_eq hapart.outline, hl]
      · exact hapart.cleaned p hp nb l hnb hl
    · intro hv
      refine congrArg String.join (List.map_congr_left fun p _ => ?_)
      rw [join_logText_eq_empty hv fun e he => (of_mem_logged he).1, String.empty_append]
    · refine ⟨?_, ?_, ?_⟩
      · rw [← hapart.any_isFailure_iff hc]
        simp
      · have hgood : (∀ p ∈ s.tree.resolve paths, ∃ nb, (Input.file p).notebook s = .ok nb) ↔
            ¬∃ p ∈ s.tree.resolve paths, ∃ e, (Input.file p).notebook s = .error e := by
          simp only [not_exists, not_and]
          refine forall₂_congr fun p _ => ?_
          cases (Input.file p).notebook s <;> simp
        rw [hgood, ← hapart.any_isFailure_iff hc]
        simp
      · intro p hp l hl
        have hpfiles : ([p].filterMap s.tree.file?).Nodup := by simp [hl]
        have hone : s.tree.resolve [p] = [p] := resolve_singleton hl
        obtain ⟨rs₁, t₁, hapart₁, hrun₁⟩ :=
          runClean_paths hc v (List.cons_ne_nil p []) (by rwa [hone])
        rw [hone] at hapart₁
        rw [hrun₁]
        exact hapart.get?_eq hapart₁ hfiles hpfiles hp List.mem_cons_self hl
  · rw [runClean_nil hc]
    cases hnb : Input.standard.notebook s with
    | ok nb => exact ⟨_, rfl, .inl ⟨nb, _, rfl, Notebook.clean_of_valid hc nb, rfl, rfl⟩⟩
    | error e => exact ⟨_, rfl, .inr ⟨⟨e, rfl, rfl⟩, rfl, rfl⟩⟩

def countedNotebook : Notebook where
  root := [("cells", .arr [.obj [("cell_type", .str "code"), ("execution_count", .num "7")]])]
  shape := Notebook.defect?_eq_none_iff.mp rfl

def countedText : String :=
  "\x7b\"cells\":[\x7b\"cell_type\":\"code\",\"execution_count\":7\x7d]\x7d"

/-- The notebook, and a file that was cut short. -/
def mixedSources : Sources where
  standard := []
  tree := {
    nodes := [(["a.ipynb"], .file (Utf8.encode countedText)),
      (["b.ipynb"], .file (Utf8.encode "\x7b\"cells\":["))]
    current := [] }

def mixedPaths : List Path := [⟨"c.ipynb"⟩, ⟨"./b.ipynb"⟩, ⟨"a.ipynb"⟩]

theorem runClean_apart_mixed : Config.Valid {} ∧ mixedPaths ≠ [] ∧
    ((mixedSources.tree.resolve mixedPaths).filterMap mixedSources.tree.file?).Nodup ∧
    ∃ out t', runClean ⟨0, false⟩ {} mixedSources mixedPaths = (out, t') ∧ out.exit = 1 ∧
      t'.read ⟨"a.ipynb"⟩ = .ok (Utf8.encode (countedNotebook.cleaned {}).text) ∧
      t'.get? ["b.ipynb"] = mixedSources.tree.get? ["b.ipynb"] ∧
      out.stderr = "nb-clean: error: ./b.ipynb: invalid JSON: " ++
        "EOF while parsing a list at line 1 column 10: " ++
        "EOF while parsing a list at line 1 column 10\n" ++
        "nb-clean: error: c.ipynb: failed to read c.ipynb: " ++
        "No such file or directory (os error 2)\n" := by
  have hvalid : Config.Valid {} := by decide
  have hpaths : mixedPaths ≠ [] := by decide
  have hresolve : mixedSources.tree.resolve mixedPaths =
      [⟨"./b.ipynb"⟩, ⟨"a.ipynb"⟩, ⟨"c.ipynb"⟩] := by decide +kernel
  have hfiles : ((mixedSources.tree.resolve mixedPaths).filterMap
      mixedSources.tree.file?).Nodup := by decide +kernel
  obtain ⟨out, t', hrun, hcleaned, hothers, -, hstderr, -, hfailed, -⟩ :=
    (runClean_apart hvalid ⟨0, false⟩ mixedSources).1 mixedPaths hpaths hfiles
  rw [hresolve] at hcleaned hothers hstderr hfailed
  refine ⟨hvalid, hpaths, hfiles, out, t', hrun, ?_, ?_, ?_, ?_⟩
  · exact hfailed.mpr ⟨⟨"c.ipynb"⟩, by simp, _, rfl⟩
  · obtain ⟨after, hafter, hread⟩ := hcleaned ⟨"a.ipynb"⟩ (by simp) countedNotebook rfl
    cases hafter
    exact hread
  · have helsewhere : ∀ p ∈ [⟨"a.ipynb"⟩, ⟨"c.ipynb"⟩],
        mixedSources.tree.file? p ≠ some ["b.ipynb"] := by decide +kernel
    refine hothers _ fun p hp nb hnb => ?_
    rcases List.mem_cons.mp hp with rfl | hp
    · cases hnb
    · exact helsewhere p hp
  · rw [hstderr rfl]
    decide +kernel

end Command

end NotebookCleaning
