import NotebookCleaning.Error

/-!
# What a shell reads

A shell marks every character of a command: single quotes open and close quotations, in which
everything stands for itself; a backslash outside of them protects the next character; blanks that
nothing protects separate words. `Shell.scan` gives the marks of a command and `Shell.words` the
words that they make up. The words of a command that was put together from quoted words are those
words, and nothing but plain characters stands in it unprotected (`words_filterCommand`).
-/

namespace NotebookCleaning

namespace Shell

/-- What a character of a command is to the shell. -/
inductive Mark where
  /-- A blank between words. -/
  | blank (c : Char)
  /-- A character that stands for itself although nothing protects it. -/
  | bare (c : Char)
  /-- A single quote that opens or closes a quotation. -/
  | quote
  | quoted (c : Char)
  /-- A backslash that protects the next character. -/
  | backslash
  /-- A character behind such a backslash. -/
  | escaped (c : Char)
  deriving DecidableEq

namespace Mark

def char : Mark → Char
  | blank c | bare c | quoted c | escaped c => c
  | quote => '\''
  | backslash => '\\'

def isBlank : Mark → Bool
  | blank _ => true
  | _ => false

/-- What a marked character adds to the word in which it stands. -/
def text : Mark → List Char
  | blank _ | quote | backslash => []
  | bare c | quoted c | escaped c => [c]

/-- Outside of quotations there are only letters, digits and nine other characters, spaces between
words, and single quotes behind a backslash. -/
def Harmless : Mark → Prop
  | blank c => c = ' '
  | bare c => ('a' ≤ c ∧ c ≤ 'z') ∨ ('A' ≤ c ∧ c ≤ 'Z') ∨ ('0' ≤ c ∧ c ≤ '9') ∨
    c ∈ ['-', '_', '.', '/', ':', '=', '@', '+', ',']
  | escaped c => c = '\''
  | quote | quoted _ | backslash => True

end Mark

inductive Mode where
  | bare
  | quoted
  | escaped

/-- The marks of a command. A quotation that is not closed and a backslash at the end have none. -/
def scan : Mode → List Char → Option (List Mark)
  | .bare, [] => some []
  | .quoted, [] => none
  | .escaped, [] => none
  | .bare, c :: cs =>
    if c = '\'' then (scan .quoted cs).map (.quote :: ·)
    else if c = '\\' then (scan .escaped cs).map (.backslash :: ·)
    else if c = ' ' ∨ c = '\t' then (scan .bare cs).map (.blank c :: ·)
    else (scan .bare cs).map (.bare c :: ·)
  | .quoted, c :: cs =>
    if c = '\'' then (scan .bare cs).map (.quote :: ·)
    else (scan .quoted cs).map (.quoted c :: ·)
  | .escaped, c :: cs => (scan .bare cs).map (.escaped c :: ·)

/-- The words that marks make up: the longest runs without blanks, without their quotes and
backslashes. -/
def words (ms : List Mark) : List (List Char) :=
  ((ms.splitOnP Mark.isBlank).filter (· ≠ [])).map fun run => run.flatMap Mark.text

/-- Every character of a command has its mark. -/
theorem char_of_scan {mode : Mode} {cs : List Char} {ms : List Mark} (h : scan mode cs = some ms) :
    ms.map Mark.char = cs := by
  induction cs generalizing mode ms with
  | nil => cases mode <;> cases h; rfl
  | cons c cs ih =>
    have hmark {m : Mark} {mode : Mode} (hm : m.char = c)
        (h : (scan mode cs).map (m :: ·) = some ms) : ms.map Mark.char = c :: cs := by
      obtain ⟨rest, hrest, rfl⟩ := Option.map_eq_some_iff.mp h
      rw [List.map_cons, hm, ih hrest]
    cases mode with
    | bare =>
      rw [scan] at h
      split at h
      · next hc => exact hmark (m := .quote) hc.symm h
      split at h
      · next hc => exact hmark (m := .backslash) hc.symm h
      split at h
      · exact hmark rfl h
      · exact hmark rfl h
    | quoted =>
      rw [scan] at h
      split at h
      · next hc => exact hmark (m := .quote) hc.symm h
      · exact hmark rfl h
    | escaped => exact hmark rfl h

/-! ## The marks of a quoted word -/

theorem harmless_bare {c : Char} (h : isPlain c) : (Mark.bare c).Harmless := by
  have hbetween {a b : Char} (h : (a ≤ c && c ≤ b) = true) : a ≤ c ∧ c ≤ b := by simpa using h
  obtain hletter | hother := Bool.or_eq_true_iff.mp h
  · obtain halpha | hdigit := Bool.or_eq_true_iff.mp hletter
    · obtain hupper | hlower := Bool.or_eq_true_iff.mp halpha
      · exact .inr (.inl (of_decide_eq_true hupper))
      · exact .inl (hbetween hlower)
    · exact .inr (.inr (.inl (hbetween hdigit)))
  · exact .inr (.inr (.inr (List.contains_iff_mem.mp hother)))

/-- The marks of a character in a quotation; a single quote stands between two quotations. -/
def quotedMarks (c : Char) : List Mark :=
  if c = '\'' then [.quote, .backslash, .escaped '\'', .quote] else [.quoted c]

def wordMarks (cs : List Char) : List Mark :=
  if !cs.isEmpty && cs.all isPlain then cs.map .bare
  else .quote :: cs.flatMap quotedMarks ++ [.quote]

variable {cs rest : List Char} {ms : List Mark}

theorem scan_plain (hcs : cs.all isPlain) (h : scan .bare rest = some ms) :
    scan .bare (cs ++ rest) = some (cs.map .bare ++ ms) := by
  have hspecial : ∀ c, isPlain c → c ≠ '\'' ∧ c ≠ '\\' ∧ ¬(c = ' ' ∨ c = '\t') := by
    rintro c hc
    refine ⟨?_, ?_, ?_⟩
    · rintro rfl; cases hc
    · rintro rfl; cases hc
    · rintro (rfl | rfl) <;> cases hc
  induction cs with
  | nil => exact h
  | cons c cs ih =>
    rw [List.all_cons, Bool.and_eq_true] at hcs
    obtain ⟨hquote, hbackslash, hblank⟩ := hspecial c hcs.1
    rw [List.cons_append, scan, if_neg hquote, if_neg hbackslash, if_neg hblank, ih hcs.2]
    rfl

theorem scan_quoted (cs : List Char) (h : scan .bare rest = some ms) :
    scan .quoted (cs.flatMap quoteChar ++ '\'' :: rest) =
      some (cs.flatMap quotedMarks ++ .quote :: ms) := by
  induction cs with
  | nil => simp [scan, h]
  | cons c cs ih =>
    rw [List.flatMap_cons, List.flatMap_cons, List.append_assoc, List.append_assoc]
    by_cases hc : c = '\''
    · simp [quoteChar, quotedMarks, hc, scan, ih]
    · simp [quoteChar, quotedMarks, hc, scan, ih]

theorem scan_quoteChars (cs : List Char) (h : scan .bare rest = some ms) :
    scan .bare (quoteChars cs ++ rest) = some (wordMarks cs ++ ms) := by
  unfold quoteChars wordMarks
  split
  · next hplain =>
    rw [Bool.and_eq_true] at hplain
    exact scan_plain hplain.2 h
  · have hbody := scan_quoted cs h
    simp [scan, hbody]

theorem wordMarks_ne_nil (cs : List Char) : wordMarks cs ≠ [] := by
  unfold wordMarks
  split
  · next hplain => cases cs <;> simp at hplain ⊢
  · exact List.cons_ne_nil _ _

theorem mem_wordMarks {m : Mark} (hm : m ∈ wordMarks cs) :
    (∃ c, isPlain c ∧ m = .bare c) ∨ m = .quote ∨ (∃ c, m = .quoted c) ∨ m = .backslash ∨
      m = .escaped '\'' := by
  unfold wordMarks at hm
  split at hm
  · next hplain =>
    rw [Bool.and_eq_true, List.all_eq_true] at hplain
    obtain ⟨c, hc, rfl⟩ := List.mem_map.mp hm
    exact .inl ⟨c, hplain.2 c hc, rfl⟩
  · rw [List.cons_append, List.mem_cons, List.mem_append, List.mem_flatMap,
      List.mem_singleton] at hm
    rcases hm with rfl | ⟨c, -, hm⟩ | rfl
    · exact .inr (.inl rfl)
    · unfold quotedMarks at hm
      split at hm
      · simp only [List.mem_cons, List.not_mem_nil, or_false] at hm
        rcases hm with rfl | rfl | rfl | rfl <;> simp
      · exact .inr (.inr (.inl ⟨c, List.mem_singleton.mp hm⟩))
    · exact .inr (.inl rfl)

theorem harmless_of_mem_wordMarks {m : Mark} (hm : m ∈ wordMarks cs) : m.Harmless := by
  rcases mem_wordMarks hm with ⟨c, hc, rfl⟩ | rfl | ⟨c, rfl⟩ | rfl | rfl
  · exact harmless_bare hc
  · trivial
  · trivial
  · trivial
  · rfl

theorem isBlank_of_mem_wordMarks {m : Mark} (hm : m ∈ wordMarks cs) : m.isBlank = false := by
  rcases mem_wordMarks hm with ⟨c, hc, rfl⟩ | rfl | ⟨c, rfl⟩ | rfl | rfl <;> rfl

theorem flatMap_text_wordMarks (cs : List Char) : (wordMarks cs).flatMap Mark.text = cs := by
  have hquoted : (cs.flatMap quotedMarks).flatMap Mark.text = cs := by
    induction cs with
    | nil => rfl
    | cons c cs ih =>
      rw [List.flatMap_cons, List.flatMap_append, ih]
      by_cases hc : c = '\'' <;> simp [quotedMarks, hc, Mark.text]
  unfold wordMarks
  split
  · rw [List.flatMap_map]
    exact List.flatMap_singleton' cs
  · simp [List.flatMap_append, hquoted, Mark.text]

/-! ## The marks of a command -/

def commandMarks (ws : List String) : List Mark :=
  [Mark.blank ' '].intercalate (ws.map fun w => wordMarks w.toList)

theorem scan_command (ws : List String) :
    scan .bare (command ws).toList = some (commandMarks ws) := by
  rw [command, String.toList_intercalate, commandMarks, List.map_map]
  induction ws with
  | nil => rfl
  | cons w ws ih =>
    have hquote : (quote w).toList = quoteChars w.toList := String.toList_ofList
    cases ws with
    | nil =>
      have hnil : scan .bare [] = some [] := rfl
      have hword := scan_quoteChars w.toList hnil
      simpa [hquote] using hword
    | cons w' ws =>
      have hrest : scan .bare (' ' :: " ".toList.intercalate
            ((w' :: ws).map (String.toList ∘ quote))) =
          some (.blank ' ' :: [Mark.blank ' '].intercalate
            ((w' :: ws).map fun w => wordMarks w.toList)) := by
        rw [scan, if_neg (by decide), if_neg (by decide), if_pos (.inl rfl), ih]
        rfl
      have hword := scan_quoteChars w.toList hrest
      rw [← hquote] at hword
      simpa [List.intercalate_cons_cons] using hword

/-- Every run of marks that a command is made of is a word of its own. -/
theorem splitOnP_intercalate {runs : List (List Mark)} (hne : runs ≠ [])
    (h : ∀ run ∈ runs, ∀ m ∈ run, m.isBlank = false) :
    ([Mark.blank ' '].intercalate runs).splitOnP Mark.isBlank = runs := by
  induction runs with
  | nil => exact absurd rfl hne
  | cons run runs ih =>
    obtain ⟨hrun, hruns⟩ := List.forall_mem_cons.mp h
    cases runs with
    | nil =>
      rw [List.intercalate_singleton]
      exact List.splitOnP_eq_singleton hrun
    | cons run' runs =>
      rw [List.intercalate_cons_cons, List.append_assoc, List.singleton_append,
        List.splitOnP_append_cons_of_forall_mem hrun _ rfl, ih (List.cons_ne_nil _ _) hruns]

theorem words_commandMarks {ws : List String} (hws : ws ≠ []) :
    words (commandMarks ws) = ws.map String.toList := by
  have hruns : (commandMarks ws).splitOnP Mark.isBlank = ws.map fun w => wordMarks w.toList := by
    refine splitOnP_intercalate (by simpa using hws) fun run hrun m hm => ?_
    obtain ⟨w, -, rfl⟩ := List.mem_map.mp hrun
    exact isBlank_of_mem_wordMarks hm
  have hkept : (ws.map fun w => wordMarks w.toList).filter (· ≠ []) =
      ws.map fun w => wordMarks w.toList := by
    refine List.filter_eq_self.mpr fun run hrun => ?_
    obtain ⟨w, -, rfl⟩ := List.mem_map.mp hrun
    exact decide_eq_true (wordMarks_ne_nil _)
  rw [words, hruns, hkept, List.map_map]
  exact List.map_congr_left fun w _ => flatMap_text_wordMarks w.toList

theorem harmless_of_mem_commandMarks {ws : List String} {m : Mark} (hm : m ∈ commandMarks ws) :
    m.Harmless := by
  rw [commandMarks] at hm
  induction ws with
  | nil => cases hm
  | cons w ws ih =>
    cases ws with
    | nil => exact harmless_of_mem_wordMarks (by simpa using hm)
    | cons w' ws =>
      rw [List.map_cons, List.map_cons, List.intercalate_cons_cons, List.append_assoc] at hm
      rcases List.mem_append.mp hm with hm | hm
      · exact harmless_of_mem_wordMarks hm
      · rcases List.mem_cons.mp hm with rfl | hm
        · rfl
        · exact ih hm

end Shell

namespace Config

open Shell

/-- The shell reads the command of a configuration as the name of the program, the verb and the
arguments of the configuration. Every character of the command has a mark, and those that nothing
protects are harmless. If the configuration is valid, nothing keeps it from giving this command. -/
theorem words_filterCommand (c : Config) : ∃ marks,
    (c.Valid → c.filterCommand? = .ok c.filterCommand) ∧
      scan .bare c.filterCommand.toList = some marks ∧
      marks.map Mark.char = c.filterCommand.toList ∧
      (words marks).map String.ofList = "nb-clean" :: "clean" :: c.filterArguments ∧
      ∀ m ∈ marks, m.Harmless := by
  have hscan := scan_command ("nb-clean" :: "clean" :: c.filterArguments)
  refine ⟨_, fun hc => map_validate_of_valid hc _, hscan, char_of_scan hscan, ?_,
    fun m => harmless_of_mem_commandMarks⟩
  rw [words_commandMarks (List.cons_ne_nil _ _), List.map_map]
  have hlist : String.ofList ∘ String.toList = id := funext fun _ => String.ofList_toList
  rw [hlist, List.map_id]

/-- Fields with quotes at their ends, a blank and a line feed, a backslash, and nothing at all. -/
def unusualFields : Config where
  cellMetadata := .preserve (.ofList ["'it''s'", "a b\n", "\\", ""])

example : unusualFields.filterCommand =
    "nb-clean clean --preserve-cell-metadata '' ''\\''it'\\'''\\''s'\\''' '\\' 'a b\n'" := by
  decide +kernel

end Config

end NotebookCleaning
