import NotebookCleaning.Proofs.CleanedFiles
import NotebookCleaning.Proofs.Printing

/-!
# The two modes of the check command

The check command tells its findings as lines or as a JSON document. The document is legible, so a
reader finds one entry in it for each input, and each entry is read by its keys only. What the other
mode prints is made from these entries (`runCheck_modes`), so neither mode tells of an input what
the other one does not, and both end with the same code.
-/

namespace NotebookCleaning.Command

open Object

/-- What an entry of the document says about its input: the findings or an error, never both. -/
structure Describes (c : Config) (s : Sources) (i : Input) (entry : Object) : Prop where
  path : get? entry "path" = some (.str i.name)
  checked : ∀ nb, i.notebook s = .ok nb → get? entry "error" = none ∧
    ∃ findings, nb.check c = .ok findings ∧ get? entry "clean" = some (.bool findings.isEmpty) ∧
      get? entry "findings" = some (.arr (findings.map fun f => .str f.message))
  failed : ∀ e, i.notebook s = .error e → get? entry "error" = some (.str (i.explain e)) ∧
    get? entry "clean" = none ∧ get? entry "findings" = none

/-! ## Reading an entry -/

section
variable (v : Voice) (entry : Object)

def string? : Json → Option String
  | .str s => some s
  | _ => none

def stringAt? (key : String) : Option String := (get? entry key).bind string?

def pathOf : String := (stringAt? entry "path").getD ""

def findingsOf : List String :=
  match get? entry "findings" with
  | some (.arr items) => items.filterMap string?
  | _ => []

/-- Whether an entry tells of anything but a clean notebook. -/
def Tells : Prop := (stringAt? entry "error").isSome ∨ findingsOf entry ≠ []

/-- A path in front of a finding. Only colour makes it differ from its text. -/
def shownPath (path : String) : String := if v.color then v.paint "1" path else path

/-- The lines of the findings of an entry. -/
def findingLines : String :=
  String.join ((findingsOf entry).map fun f => shownPath v (pathOf entry) ++ ": " ++ f ++ "\n")

/-- The lines of the error of an entry. -/
def errorLines : String :=
  match stringAt? entry "error" with
  | some message =>
    logText v ⟨.warn, "skipping unreadable notebook", [("path", pathOf entry)]⟩ ++
      errorText v.color (pathOf entry) message
  | none => ""

end

theorem paint_eq_shownPath (v : Voice) (path : String) : v.paint "1" path = shownPath v path := by
  unfold shownPath
  split
  · rfl
  · next h => rw [Voice.paint, if_neg h]

theorem filterMap_messages (findings : List Finding) :
    (findings.map fun f => Json.str f.message).filterMap string? =
      findings.map Finding.message := by
  have hstring : string? ∘ (fun f => Json.str f.message) = some ∘ Finding.message := rfl
  rw [List.filterMap_map, hstring, List.filterMap_eq_map]

namespace Describes

variable {c : Config} {s : Sources} {i : Input} {entry : Object} {nb : Notebook}
  {findings : List Finding} {e : InputError}

theorem pathOf_eq (h : Describes c s i entry) : pathOf entry = i.name := by
  rw [pathOf, stringAt?, h.path]
  rfl

theorem findingsOf_eq (h : Describes c s i entry) (hnb : i.notebook s = .ok nb)
    (hcheck : nb.check c = .ok findings) : findingsOf entry = findings.map Finding.message := by
  obtain ⟨-, findings', hcheck', -, hfindings⟩ := h.checked nb hnb
  obtain rfl : findings' = findings := Except.ok.inj (hcheck'.symm.trans hcheck)
  rw [findingsOf, hfindings]
  exact filterMap_messages _

theorem findingLines_of_ok (h : Describes c s i entry) (hnb : i.notebook s = .ok nb)
    (hcheck : nb.check c = .ok findings) (v : Voice) : findingLines v entry =
      String.join (findings.map fun f => shownPath v i.name ++ ": " ++ f.message ++ "\n") := by
  rw [findingLines, h.findingsOf_eq hnb hcheck, h.pathOf_eq, List.map_map]
  rfl

theorem findingLines_of_error (h : Describes c s i entry) (he : i.notebook s = .error e)
    (v : Voice) : findingLines v entry = "" := by
  rw [findingLines, findingsOf, (h.failed e he).2.2]
  rfl

theorem errorLines_of_ok (h : Describes c s i entry) (hnb : i.notebook s = .ok nb)
    (v : Voice) : errorLines v entry = "" := by
  rw [errorLines, stringAt?, (h.checked nb hnb).1]
  rfl

theorem errorLines_of_error (h : Describes c s i entry) (he : i.notebook s = .error e)
    (v : Voice) : errorLines v entry =
      logText v ⟨.warn, "skipping unreadable notebook", [("path", i.name)]⟩ ++
        errorText v.color i.name (i.explain e) := by
  rw [errorLines, stringAt?, (h.failed e he).1, h.pathOf_eq]
  rfl

end Describes

/-- The log line of an input that gives a notebook. -/
def checkedLine (v : Voice) (c : Config) (s : Sources) (i : Input) : String :=
  match i.notebook s with
  | .ok nb => logText v ⟨.debug, "checked notebook",
      [("cells", toString nb.cells.length), ("findings", toString (nb.findings c).length)]⟩
  | .error _ => ""

theorem checkedLine_eq_empty {v : Voice} (hv : v.verbosity = 0) (c : Config) (s : Sources)
    (i : Input) : checkedLine v c s i = "" := by
  unfold checkedLine
  split
  · exact logText_eq_empty hv Level.noConfusion
  · rfl

namespace Checked

def fields (r : Checked) : Object := r.entry.object?.getD []

variable (v : Voice) (i : Input) (nb : Notebook) (findings : List Finding) (e : InputError)

theorem entry_eq (r : Checked) : r.entry = .obj r.fields := by
  obtain ⟨i, e | ⟨nb, findings⟩⟩ := r <;> rfl

theorem findingsOf_fields_ok :
    findingsOf (fields ⟨i, .ok (nb, findings)⟩) = findings.map Finding.message :=
  filterMap_messages findings

theorem lines_eq (r : Checked) : r.lines v = findingLines v r.fields := by
  obtain ⟨i, e | ⟨nb, findings⟩⟩ := r
  · rfl
  · rw [findingLines, findingsOf_fields_ok, List.map_map]
    simp only [lines, paint_eq_shownPath]
    rfl

theorem isClean_eq_false_iff (r : Checked) : r.isClean = false ↔ Tells r.fields := by
  obtain ⟨i, e | ⟨nb, findings⟩⟩ := r
  · exact iff_of_true rfl (.inl rfl)
  · have herror : ¬(stringAt? (fields ⟨i, .ok (nb, findings)⟩) "error").isSome := Bool.noConfusion
    rw [Tells, or_iff_right herror, findingsOf_fields_ok, Ne, List.map_eq_nil_iff,
      ← List.isEmpty_iff, Bool.not_eq_true]
    rfl

variable {c : Config} {s : Sources}

theorem stderr_ofInput (hc : c.Valid) :
    (ofInput c s i).event.line v ++ (ofInput c s i).failure v =
      checkedLine v c s i ++ errorLines v (ofInput c s i).fields := by
  cases hi : i.notebook s with
  | ok nb =>
    rw [ofInput_of_ok hi (nb.check_of_valid hc), checkedLine, hi,
      line_eq_logText v (by simp [event])]
    rfl
  | error e =>
    rw [ofInput_of_error hi, checkedLine, hi, line_eq_logText v (by simp [event]), failure]
    dsimp only
    rw [errorLine_eq v i.name (solid_explain hi)]
    exact String.empty_append.symm

theorem get?_path_fields (r : Checked) : get? r.fields "path" = some (.str r.input.name) := by
  obtain ⟨i, e | ⟨nb, findings⟩⟩ := r <;> rfl

theorem describes_ofInput (hc : c.Valid) : Describes c s i (ofInput c s i).fields := by
  refine ⟨get?_path_fields _, fun nb hnb => ?_, fun e he => ?_⟩
  · have hcheck := nb.check_of_valid hc
    rw [ofInput_of_ok hnb hcheck]
    exact ⟨rfl, nb.findings c, hcheck, rfl, rfl⟩
  · rw [ofInput_of_error he]
    exact ⟨rfl, rfl, rfl⟩

theorem legible_entry {depth : Nat} (r : Checked) : Json.Legible (depth + 2) r.entry := by
  obtain ⟨i, e | ⟨nb, findings⟩⟩ := r
  · refine .obj (by simp) (by simp [Json.Reader.numberKey]) ?_
    simp [Json.Legible.str]
  · have hmessages : Json.Legible (depth + 1) (.arr (findings.map fun f => .str f.message)) :=
      .arr (by simp [Json.Legible.str])
    refine .obj (by simp) (by simp [Json.Reader.numberKey]) ?_
    simp [Json.Legible.str, Json.Legible.bool, hmessages]

end Checked

section
variable (rs : List Checked)

theorem legible_checkDocument {depth : Nat} : Json.Legible (depth + 4) (checkDocument rs) := by
  have hentries : Json.Legible (depth + 3) (.arr (rs.map Checked.entry)) := by
    refine .arr fun v hv => ?_
    obtain ⟨r, -, rfl⟩ := List.mem_map.mp hv
    exact r.legible_entry
  refine .obj (by simp) (by simp [Json.Reader.numberKey]) ?_
  simp [Json.Legible.bool, hentries]

theorem checkDocument_eq : checkDocument rs =
    .obj [("clean", .bool (checkExit rs = 0)),
      ("files", .arr ((rs.map Checked.fields).map .obj))] := by
  have hclean : rs.all Checked.isClean = decide (checkExit rs = 0) := by
    unfold checkExit
    split <;> simp [*]
  rw [checkDocument, hclean, List.map_map, List.map_congr_left fun r _ => r.entry_eq]
  rfl

theorem checkExit_eq_one_iff : checkExit rs = 1 ↔ ∃ entry ∈ rs.map Checked.fields, Tells entry := by
  have hexit : checkExit rs = 1 ↔ rs.all Checked.isClean = false := by
    unfold checkExit
    split <;> simp [*]
  simp only [hexit, List.all_eq_false, Bool.not_eq_true, Checked.isClean_eq_false_iff,
    List.mem_map, exists_exists_and_eq_and]

end

/-- Both modes of a check end with the same code. The document of the one says whether that code is
zero and has, in order, an entry for each input; the other one prints the findings of these entries
and nothing else, and reports their errors. The code is one just if an entry tells of an error or of
a finding. -/
theorem runCheck_modes {c : Config} (hc : c.Valid) (v : Voice) (s : Sources) (paths : List Path) :
    ∃ document lines entries,
      runCheck v c true s paths = document ∧ runCheck v c false s paths = lines ∧
      document.exit = lines.exit ∧
      Json.parse (Utf8.encode document.stdout) = .ok (.obj
        [("clean", .bool (lines.exit = 0)), ("files", .arr (entries.map .obj))]) ∧
      List.Forall₂ (Describes c s) (s.tree.inputs paths) entries ∧
      lines.stdout = String.join (entries.map (findingLines v)) ∧
      lines.stderr = String.join (List.zipWith (checkedLine v c s · ++ errorLines v ·)
        (s.tree.inputs paths) entries) ∧
      (v.verbosity = 0 → lines.stderr = String.join (entries.map (errorLines v))) ∧
      (lines.exit = 0 ∨ lines.exit = 1) ∧
      (lines.exit = 1 ↔ ∃ entry ∈ entries, Tells entry) := by
  have hdocument : Json.Legible Json.Reader.maxDepth (checkDocument (checkAll c s paths)) :=
    legible_checkDocument (checkAll c s paths)
  have hstderr : (runCheck v c false s paths).stderr = String.join ((s.tree.inputs paths).map
      fun i => checkedLine v c s i ++ errorLines v (Checked.ofInput c s i).fields) := by
    have hprinted : (runCheck v c false s paths).stderr = String.join
        ((checkAll c s paths).map fun r => r.event.line v ++ r.failure v) := rfl
    rw [hprinted, checkAll, List.map_map]
    exact congrArg String.join (List.map_congr_left fun i _ => Checked.stderr_ofInput v i hc)
  refine ⟨_, _, (checkAll c s paths).map Checked.fields, rfl, rfl, rfl, ?_, ?_, ?_, ?_, ?_, ?_,
    checkExit_eq_one_iff _⟩
  · exact (Json.parse_render hdocument 2).trans (congrArg Except.ok (checkDocument_eq _))
  · rw [checkAll, List.map_map, List.forall₂_map_right_iff, List.forall₂_same]
    exact fun i _ => Checked.describes_ofInput i hc
  · rw [List.map_map]
    exact congrArg String.join (List.map_congr_left fun r _ => r.lines_eq v)
  · rw [hstderr, checkAll, List.map_map, List.zipWith_map_right, List.zipWith_self]
    rfl
  · intro hv
    simp only [hstderr, checkAll, List.map_map, checkedLine_eq_empty hv, String.empty_append]
    rfl
  · exact ite_eq_or_eq _ 0 1

/-- A notebook with an execution count, a file that was cut short, and a notebook without cells. -/
def variedSources : Sources where
  standard := []
  tree := {
    nodes := mixedSources.tree.nodes ++
      [(["d.ipynb"], .file (Utf8.encode "\x7b\"cells\":[]\x7d"))]
    current := [] }

def emptyNotebook : Notebook where
  root := [("cells", .arr [])]
  shape := Notebook.defect?_eq_none_iff.mp rfl

/-- The third of the files in ascending order is missing. -/
def variedPaths : List Path := [⟨"d.ipynb"⟩, ⟨"c.ipynb"⟩, ⟨"a.ipynb"⟩, ⟨"b.ipynb"⟩]

theorem runCheck_modes_varied : Config.Valid {} ∧
    ∃ document lines a b c d,
      runCheck ⟨0, false⟩ {} true variedSources variedPaths = document ∧
      runCheck ⟨0, false⟩ {} false variedSources variedPaths = lines ∧
      document.exit = 1 ∧ lines.exit = 1 ∧
      Json.parse (Utf8.encode document.stdout) =
        .ok (.obj [("clean", .bool false), ("files", .arr [.obj a, .obj b, .obj c, .obj d])]) ∧
      get? a "findings" = some (.arr [.str "execution count in cell 0"]) ∧
      (get? b "error").isSome ∧
      get? c "error" =
        some (.str "failed to read c.ipynb: No such file or directory (os error 2)") ∧
      get? d "clean" = some (.bool true) ∧
      lines.stdout = "a.ipynb: execution count in cell 0\n" ∧
      lines.stderr = " WARN skipping unreadable notebook path=b.ipynb\n" ++
        "nb-clean: error: b.ipynb: invalid JSON: EOF while parsing a list at line 1 column 10: " ++
        "EOF while parsing a list at line 1 column 10\n" ++
        " WARN skipping unreadable notebook path=c.ipynb\n" ++
        "nb-clean: error: c.ipynb: failed to read c.ipynb: " ++
        "No such file or directory (os error 2)\n" := by
  have hvalid : Config.Valid {} := by decide
  have hinputs : variedSources.tree.inputs variedPaths = [.file ⟨"a.ipynb"⟩, .file ⟨"b.ipynb"⟩,
      .file ⟨"c.ipynb"⟩, .file ⟨"d.ipynb"⟩] := by decide +kernel
  obtain ⟨document, lines, entries, hdocument, hlines, hexit, hparse, hentries, hstdout, -,
    hstderr, -, hone⟩ := runCheck_modes hvalid ⟨0, false⟩ variedSources variedPaths
  rw [hinputs] at hentries
  obtain ⟨a, _, ha, hafter, rfl⟩ := List.forall₂_cons_left_iff.mp hentries
  obtain ⟨b, _, hb, hafter', rfl⟩ := List.forall₂_cons_left_iff.mp hafter
  obtain ⟨c, _, hc, hlast, rfl⟩ := List.forall₂_cons_left_iff.mp hafter'
  obtain ⟨d, _, hd, hnone, rfl⟩ := List.forall₂_cons_left_iff.mp hlast
  obtain rfl := List.forall₂_nil_left_iff.mp hnone
  have hnotebook : (Input.file ⟨"a.ipynb"⟩).notebook variedSources = .ok countedNotebook := rfl
  have hempty : (Input.file ⟨"d.ipynb"⟩).notebook variedSources = .ok emptyNotebook := rfl
  obtain ⟨-, founds, hfounds, -, hfindings⟩ := ha.checked _ hnotebook
  obtain ⟨hmissing, -⟩ := hc.failed _ rfl
  obtain ⟨hbroken, -⟩ := hb.failed _ rfl
  obtain ⟨-, nothing, hnothing, hclean, -⟩ := hd.checked _ hempty
  cases hfounds
  cases hnothing
  have hlinesExit : lines.exit = 1 := by
    refine hone.mpr ⟨c, by simp, .inl ?_⟩
    rw [stringAt?, hmissing]
    rfl
  rw [hlinesExit] at hexit hparse
  refine ⟨hvalid, document, lines, a, b, c, d, hdocument, hlines, hexit, hlinesExit, hparse,
    hfindings, hbroken ▸ rfl, hmissing, hclean, ?_, ?_⟩
  · rw [hstdout]
    simp only [List.map_cons, List.map_nil, ha.findingLines_of_ok hnotebook rfl,
      hb.findingLines_of_error rfl, hc.findingLines_of_error rfl,
      hd.findingLines_of_ok hempty rfl]
    decide +kernel
  · rw [hstderr rfl]
    simp only [List.map_cons, List.map_nil, ha.errorLines_of_ok hnotebook,
      hb.errorLines_of_error rfl, hc.errorLines_of_error rfl, hd.errorLines_of_ok hempty]
    decide +kernel

end NotebookCleaning.Command
