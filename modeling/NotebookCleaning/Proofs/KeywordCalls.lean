import NotebookCleaning.Command.Run
import NotebookCleaning.Keywords
import NotebookCleaning.Proofs.CleanedFiles
import NotebookCleaning.Proofs.FilterArguments

/-!
# Calls with options and command lines

The options of a call give a configuration, and a configuration gives the arguments of a command
line. The settings are judged before the notebook is read (`Options.call_cases`), on the command
line as in a call, and what keeps nothing is a list without fields in the one and no list in the
other. So the command line on a standard input does what the call does on its text
(`run_filterArguments`).
-/

namespace NotebookCleaning

open Command

theorem Notebook.ofText?_ne_conflict (text : String) :
    Notebook.ofText? text ≠ .error .conflict := by
  intro h
  unfold ofText? ofOctets? at h
  split at h
  · cases h
  · next v hparse =>
    cases hnb : ofJson? v with
    | error e =>
      rw [hnb] at h
      cases h
    | ok nb =>
      rw [hnb] at h
      cases h

theorem Cell.findings_requested (c : Config) (cell : Cell) :
    cell.findings c.requested = cell.findings c := by
  have hkeeps : c.requested.cellMetadata.keeps = c.cellMetadata.keeps :=
    funext c.cellMetadata.keeps_requested
  have hmetadata : cell.metadataFindings c.requested.cellMetadata =
      cell.metadataFindings c.cellMetadata := by
    unfold metadataFindings
    rw [hkeeps]
  unfold findings
  rw [hmetadata]
  rfl

theorem Notebook.findings_requested (c : Config) (nb : Notebook) :
    nb.findings c.requested = nb.findings c := by
  simp only [findings, Cell.findings_requested]
  rfl

namespace Options

variable {o : Options} {c : Config}

/-- Options that do not give both policies have a configuration. -/
theorem exists_config (h : ¬(o.preserveAll ∧ o.fields.isSome)) : ∃ c, o.config = .ok c := by
  unfold config policy
  cases hall : o.preserveAll with
  | false => cases o.fields <;> exact ⟨_, rfl⟩
  | true =>
    cases hfields : o.fields with
    | none => exact ⟨_, rfl⟩
    | some fs => exact absurd ⟨hall, by rw [hfields]; rfl⟩ h

theorem policy_of_config (h : o.config = .ok c) : o.policy = .ok c.cellMetadata := by
  unfold config at h
  obtain ⟨p, hp, hc⟩ := bind_eq_ok_iff.mp h
  cases hc
  rw [hp, Config.cellMetadata_foldr_set]

/-- The configuration names no other fields than the options. -/
theorem mem_fields_of_named (h : o.config = .ok c) {f : String}
    (hf : f ∈ c.cellMetadata.named) : f ∈ o.fields.getD [] := by
  have hpolicy := policy_of_config h
  obtain ⟨p, hp⟩ : ∃ p, c.cellMetadata = p := ⟨_, rfl⟩
  rw [hp] at hpolicy hf
  unfold policy at hpolicy
  split at hpolicy <;> cases hpolicy
  · cases hf
  · cases hf
  · next fs hfields =>
    rw [hfields]
    exact FieldSet.mem_ofList.mp hf

theorem validConfig_of_config (h : o.config = .ok c) :
    o.validConfig = c.validate.mapError .because := by
  unfold validConfig
  rw [h]
  rfl

/-- What a call can do. The settings are judged before the notebook is read. -/
theorem call_cases (h : o.config = .ok c) (text : String) :
    (¬c.Valid ∧ o.clean text = .error (.because .conflict) ∧
        o.check text = .error (.because .conflict)) ∨
      (∃ e, c.Valid ∧ Notebook.ofText? text = .error e ∧ o.clean text = .error (.because e) ∧
        o.check text = .error (.because e)) ∨
      ∃ nb, c.Valid ∧ Notebook.ofText? text = .ok nb ∧
        o.clean text = .ok (nb.cleaned c).text ∧ o.check text = .ok (nb.findings c) := by
  unfold clean check
  rw [validConfig_of_config h]
  by_cases hc : c.Valid
  · rw [Config.validate_of_valid hc]
    cases hnb : Notebook.ofText? text with
    | error e => exact .inr (.inl ⟨e, hc, rfl, rfl, rfl⟩)
    | ok nb =>
      refine .inr (.inr ⟨nb, hc, rfl, ?_, ?_⟩)
      · change ((nb.clean c).mapError Failure.because >>= fun after => pure after.text) = _
        rw [Notebook.clean_of_valid hc]
        rfl
      · change (nb.check c).mapError Failure.because = _
        rw [Notebook.check_of_valid hc]
        rfl
  · rw [Config.validate_of_not_valid hc]
    exact .inl ⟨hc, rfl, rfl⟩

end Options

namespace Command

variable {w : World} {c : Config} {text : String}

/-- The outcome has this exit code, and this is printed on the standard output. -/
def Outcome.Shows (out : Outcome) (exit : Nat) (stdout : String) : Prop :=
  out.exit = exit ∧ ∃ stderr, out.printed = some (stdout, stderr)

theorem Outcome.Shows.shows_iff {out : Outcome} {exit exit' : Nat} {stdout stdout' : String}
    (h : out.Shows exit stdout) : out.Shows exit' stdout' ↔ exit = exit' ∧ stdout = stdout' := by
  obtain ⟨hexit, stderr, hprinted⟩ := h
  simp [Shows, hexit, hprinted]

/-- The request that the arguments of a configuration make behind a verb. -/
def plainRequest (verb : Verb) (c : Config) : Request where
  verb := verb
  verbosity := 0
  config := c.requested
  json := false
  paths := []

theorem run_eq_carryOut {name : String} {verb : Verb}
    (hname : ∀ args, parse (name :: args) = request 0 verb args) (hverb : verb.takesConfig)
    (hc : ∀ f ∈ c.cellMetadata.named, Undashed f) (w : World) :
    w.run (name :: c.filterArguments) = w.carryOut (plainRequest verb c) := by
  rw [World.run, hname, request_filterArguments 0 hverb hc]
  rfl

theorem carryOut_of_not_valid (hc : ¬c.Valid) :
    (w.carryOut (plainRequest .clean c)).Shows 2 "" := by
  have hinvalid : ¬c.requested.Valid := mt c.valid_requested_iff.mp hc
  unfold World.carryOut
  simp only [plainRequest, Config.validate_of_not_valid hinvalid]
  exact ⟨rfl, _, rfl⟩

theorem notebook_standard {s : Sources} (h : s.standard = Utf8.encode text) :
    Input.standard.notebook s = (Notebook.ofText? text).mapError .unusable := by
  unfold Input.notebook Input.text
  rw [h, Utf8.decode?_encode]

theorem runCheck_nil (hc : c.Valid) (v : Voice) (s : Sources) {nb : Notebook}
    (h : Input.standard.notebook s = .ok nb) : ∃ stderr, runCheck v c false s [] = {
      exit := if (nb.findings c).isEmpty then 0 else 1
      stdout := String.join ((nb.findings c).map fun f =>
        v.paint "1" "stdin" ++ ": " ++ f.message ++ "\n")
      stderr := stderr } := by
  have hchecked : checkAll c s [] = [⟨.standard, .ok (nb, nb.findings c)⟩] := by
    have hinputs : s.tree.inputs [] = [.standard] := rfl
    rw [checkAll, hinputs, List.map_singleton, Checked.ofInput_of_ok h (nb.check_of_valid hc)]
  unfold runCheck checkExit
  rw [hchecked]
  simp [Checked.isClean, Checked.lines, Input.name]

theorem carryOut_clean (hc : c.Valid) (w : World) : w.carryOut (plainRequest .clean c) =
    World.finish (runClean ⟨0, w.color⟩ c.requested w.sources []).1
      (runClean ⟨0, w.color⟩ c.requested w.sources []).2 [] := by
  have hvalid : c.requested.Valid := c.valid_requested_iff.mpr hc
  unfold World.carryOut
  simp only [plainRequest, Config.validate_of_valid hvalid]

theorem carryOut_check (hc : c.Valid) (w : World) : w.carryOut (plainRequest .check c) =
    World.finish (runCheck ⟨0, w.color⟩ c.requested false w.sources []) w.sources.tree [] := by
  have hvalid : c.requested.Valid := c.valid_requested_iff.mpr hc
  unfold World.carryOut
  simp only [plainRequest, Config.validate_of_valid hvalid]

theorem carryOut_clean_of_error {e : Error} (hc : c.Valid)
    (hstandard : w.sources.standard = Utf8.encode text) (htext : Notebook.ofText? text = .error e) :
    (w.carryOut (plainRequest .clean c)).Shows 1 "" := by
  rw [carryOut_clean hc, runClean_nil (c.valid_requested_iff.mpr hc), notebook_standard hstandard,
    htext]
  exact ⟨rfl, _, rfl⟩

theorem carryOut_clean_of_ok {nb : Notebook} (hc : c.Valid)
    (hstandard : w.sources.standard = Utf8.encode text) (htext : Notebook.ofText? text = .ok nb) :
    (w.carryOut (plainRequest .clean c)).Shows 0 (nb.cleaned c).text := by
  rw [carryOut_clean hc, runClean_nil (c.valid_requested_iff.mpr hc), notebook_standard hstandard,
    htext, ← nb.cleaned_requested c]
  exact ⟨rfl, _, rfl⟩

theorem carryOut_check_of_ok {nb : Notebook} (hc : c.Valid)
    (hstandard : w.sources.standard = Utf8.encode text) (htext : Notebook.ofText? text = .ok nb) :
    (w.carryOut (plainRequest .check c)).Shows (if (nb.findings c).isEmpty then 0 else 1)
      (String.join ((nb.findings c).map fun f =>
        Voice.paint ⟨0, w.color⟩ "1" "stdin" ++ ": " ++ f.message ++ "\n")) := by
  have hnotebook : Input.standard.notebook w.sources = .ok nb := by
    rw [notebook_standard hstandard, htext]
    rfl
  obtain ⟨stderr, hrun⟩ := runCheck_nil (c.valid_requested_iff.mpr hc) ⟨0, w.color⟩ w.sources
    hnotebook
  rw [carryOut_check hc, hrun, nb.findings_requested c]
  exact ⟨rfl, _, rfl⟩

/-- Behind `clean` and `check` the arguments of the configuration of some options do with a standard
input what the calls do with its text: the command prints what the call returns, exits with 2 if the
options contradict each other, and exits with 1 and prints nothing if the text is no notebook. -/
theorem run_filterArguments {o : Options} (hpolicy : ¬(o.preserveAll ∧ o.fields.isSome))
    (hfields : ∀ f ∈ o.fields.getD [], Undashed f) :
    ∃ c, o.config = .ok c ∧
      ∀ (w : World) (text : String), w.sources.standard = Utf8.encode text →
        (∀ s, (w.run ("clean" :: c.filterArguments)).Shows 0 s ↔ o.clean text = .ok s) ∧
        ((w.run ("clean" :: c.filterArguments)).exit = 2 ↔
          o.clean text = .error (.because .conflict)) ∧
        ((w.run ("clean" :: c.filterArguments)).Shows 1 "" ↔
          ∃ e, Notebook.ofText? text = .error e ∧ o.clean text = .error (.because e)) ∧
        ∀ fs, o.check text = .ok fs → ∃ name, name = Voice.paint ⟨0, w.color⟩ "1" "stdin" ∧
          (w.color = false → name = "stdin") ∧
          (w.run ("check" :: c.filterArguments)).Shows (if fs.isEmpty then 0 else 1)
            (String.join (fs.map fun f => name ++ ": " ++ f.message ++ "\n")) := by
  obtain ⟨c, hconfig⟩ := Options.exists_config hpolicy
  have hc : ∀ f ∈ c.cellMetadata.named, Undashed f :=
    fun f hf => hfields f (Options.mem_fields_of_named hconfig hf)
  refine ⟨c, hconfig, fun w text hstandard => ?_⟩
  rw [run_eq_carryOut parse_clean rfl hc, run_eq_carryOut parse_check rfl hc]
  have hreading := Notebook.ofText?_ne_conflict text
  rcases Options.call_cases hconfig text with ⟨hvalid, hclean, hcheck⟩ |
    ⟨e, hvalid, htext, hclean, hcheck⟩ | ⟨nb, hvalid, htext, hclean, hcheck⟩
  · have hshows := carryOut_of_not_valid (w := w) hvalid
    simp [hshows.shows_iff, hshows.1, hclean, hcheck, hreading]
  · have hshows := carryOut_clean_of_error hvalid hstandard htext
    rw [htext] at hreading
    have hne : e ≠ .conflict := fun heq => hreading (congrArg _ heq)
    simp [hshows.shows_iff, hshows.1, hclean, hcheck, hne, htext]
  · have hshows := carryOut_clean_of_ok hvalid hstandard htext
    refine ⟨?_, ?_, ?_, fun fs hfs => ?_⟩
    · simp [hshows.shows_iff, hclean]
    · simp [hshows.1, hclean]
    · simp [hshows.shows_iff, hclean]
    · rw [hcheck] at hfs
      cases hfs
      refine ⟨_, rfl, fun hcolor => ?_, carryOut_check_of_ok hvalid hstandard htext⟩
      rw [hcolor]
      rfl

/-- Options with a dash and a blank among their fields. -/
def namedFields : Options where
  flags := [(.removeEmptyCells, true), (.preserveOutputs, false)]
  fields := some ["tags", "-", "my field"]

/-- A notebook on the standard input. -/
def countedWorld : World where
  sources := ⟨Utf8.encode countedText, { nodes := [], current := [] }⟩
  git := .missing
  color := false

theorem run_filterArguments_namedFields :
    ¬(namedFields.preserveAll ∧ namedFields.fields.isSome) ∧
      (∀ f ∈ namedFields.fields.getD [], Undashed f) ∧
      ∃ c, namedFields.config = .ok c ∧
        c.filterArguments =
          ["--remove-empty-cells", "--preserve-cell-metadata", "-", "my field", "tags"] ∧
        (countedWorld.run ("clean" :: c.filterArguments)).Shows 0
          (countedNotebook.cleaned c).text := by
  have hpolicy : ¬(namedFields.preserveAll ∧ namedFields.fields.isSome) := by decide
  have hfields : ∀ f ∈ namedFields.fields.getD [], Undashed f := by decide
  obtain ⟨c, hconfig, hrun⟩ := run_filterArguments hpolicy hfields
  refine ⟨hpolicy, hfields, c, hconfig, ?_, ?_⟩
  · cases hconfig
    decide
  · refine ((hrun countedWorld countedText rfl).1 _).mpr ?_
    cases hconfig
    rfl

end Command

end NotebookCleaning
