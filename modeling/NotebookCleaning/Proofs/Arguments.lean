import Mathlib.Tactic.SplitIfs
import NotebookCleaning.Command.Arguments

/-!
# What arguments say

The arguments of a verb are scanned from left to right. A flag is noted and ends the list of fields;
an argument that stands for itself is a field as long as that list is open. Conversely every field
is supplied by an argument: it is that argument or is attached to it, and then it is shorter
(`supplied_of_scan`).
-/

namespace NotebookCleaning

namespace Config.Flag

/-- The word that sets a flag. -/
def word : Flag → String
  | removeEmptyCells => "remove-empty-cells"
  | preserveOutputs => "preserve-cell-outputs"
  | preserveCounts => "preserve-execution-counts"
  | preserveNotebookMetadata => "preserve-notebook-metadata"
  | removeNotebookMetadata => "remove-all-notebook-metadata"

def argument (f : Flag) : String := "--" ++ f.word

end Config.Flag

namespace Command

open Config

section Except

variable {ε α β : Type} {r : Except ε α}

theorem bind_eq_ok_iff {f : α → Except ε β} {b : β} :
    r.bind f = .ok b ↔ ∃ a, r = .ok a ∧ f a = .ok b := by
  cases r <;> simp [Except.bind]

theorem map_eq_ok_iff {f : α → β} {b : β} : r.map f = .ok b ↔ ∃ a, r = .ok a ∧ f a = b := by
  cases r <;> simp [Except.map]

end Except

variable {verb : Verb} {listing : Bool} {d d' : Draft} {args : List String}

/-- An argument that stands for itself. Of those that begin with a dash only the dash alone does. -/
def Undashed (s : String) : Prop := s = "-" ∨ s.toList.head? ≠ some '-'

instance (s : String) : Decidable (Undashed s) := inferInstanceAs (Decidable (_ ∨ _))

theorem ofArgument_eq_plain_iff {s : String} : Form.ofArgument s = .plain ↔ Undashed s := by
  have hdash : s = "-" ↔ s.toList = ['-'] := by
    rw [← String.toList_inj]
    rfl
  unfold Form.ofArgument Undashed
  rw [hdash]
  split
  · simp_all
  · simp_all only [Form.ofWord, List.cons.injEq, List.head?_cons]
    split <;> simp
  · simp_all
  · next hword hletters =>
    simp only [true_iff]
    cases hs : s.toList with
    | nil => simp
    | cons c cs =>
      by_cases hc : c = '-'
      · subst hc
        cases cs with
        | nil => exact .inl rfl
        | cons c cs => exact absurd hs (hletters c cs)
      · simp [hc]

section Flags

variable {f : Flag}

theorem ofArgument_argument (f : Flag) : Form.ofArgument f.argument = .word f.word.toList none := by
  cases f <;> rfl

theorem flagOfWord?_word (f : Flag) : flagOfWord? f.word = some f := by cases f <;> rfl

theorem scanWord_word (hverb : verb.takesConfig) (hf : f ∉ d.flags) :
    scanWord verb d f.word none = .ok ({ d with flags := f :: d.flags }, false) := by
  have hne : f.word ≠ "preserve-cell-metadata" ∧ f.word ≠ "verbose" ∧ f.word ≠ "help" ∧
      f.word ≠ "json" := by
    cases f <;> decide
  simp [scanWord, flagOfWord?_word, hverb, Draft.addFlag, hf, hne, Except.map]

theorem scan_argument (hverb : verb.takesConfig) (hf : f ∉ d.flags) :
    scan verb listing d (f.argument :: args) =
      scan verb false { d with flags := f :: d.flags } args := by
  rw [scan]
  simp only [ofArgument_argument, Option.map_none, String.ofList_toList, scanWord_word hverb hf]
  rfl

/-- Flags that are given once each are all noted. -/
theorem scan_arguments (hverb : verb.takesConfig) {fs : List Flag} (hfs : fs.Nodup)
    (hnew : ∀ f ∈ fs, f ∉ d.flags) : scan verb listing d (fs.map Flag.argument ++ args) =
      scan verb (listing && fs.isEmpty) { d with flags := fs.reverse ++ d.flags } args := by
  induction fs generalizing d listing with
  | nil => simp
  | cons f fs ih =>
    obtain ⟨hf, hfs⟩ := List.nodup_cons.mp hfs
    have hrest : ∀ g ∈ fs, g ∉ f :: d.flags := by
      intro g hg hmem
      rcases List.mem_cons.mp hmem with rfl | hmem
      · exact hf hg
      · exact hnew g (List.mem_cons_of_mem _ hg) hmem
    rw [List.map_cons, List.cons_append, scan_argument hverb (hnew f List.mem_cons_self),
      ih hfs hrest]
    simp

end Flags

/-- The option for fields opens their list. -/
theorem scan_fieldsOption (hverb : verb.takesConfig) :
    scan verb listing d ("--preserve-cell-metadata" :: args) =
      scan verb true (d.addFields []) args := by
  have hform : Form.ofArgument "--preserve-cell-metadata" =
      .word "preserve-cell-metadata".toList none := rfl
  rw [scan]
  simp only [hform, Option.map_none, String.ofList_toList, scanWord, hverb, and_self, if_true]
  rfl

/-- While the list is open, arguments that stand for themselves are fields. -/
theorem scan_fields {gs fs : List String} (hd : d.fields = some gs) (hfs : ∀ f ∈ fs, Undashed f) :
    scan verb true d (fs ++ args) = scan verb true { d with fields := some (gs ++ fs) } args := by
  induction fs generalizing d gs with
  | nil => rw [List.nil_append, List.append_nil, ← hd]
  | cons f fs ih =>
    obtain ⟨hf, hfs⟩ := List.forall_mem_cons.mp hfs
    have hadded : (d.addFields [f]).fields = some (gs ++ [f]) := by simp [Draft.addFields, hd]
    rw [List.cons_append, scan]
    simp only [ofArgument_eq_plain_iff.mpr hf, if_true]
    rw [ih hadded hfs]
    simp [Draft.addFields]

/-- How an argument supplies a field: it is the field, or the field is attached to its word or
stands behind one of its letters. -/
def Supplies (arg f : String) : Prop :=
  match Form.ofArgument arg with
  | .plain => arg = f
  | .word _ (some value) => String.ofList value = f
  | .letters cs => ∃ c, c :: f.toList <:+ cs
  | _ => False

theorem not_supplies_argument (flag : Flag) (f : String) : ¬Supplies flag.argument f := by
  simp [Supplies, ofArgument_argument]

theorem not_supplies_fieldsOption (f : String) : ¬Supplies "--preserve-cell-metadata" f := by
  have hform : Form.ofArgument "--preserve-cell-metadata" =
      .word "preserve-cell-metadata".toList none := rfl
  simp [Supplies, hform]

theorem length_lt_of_ofWord {cs name value : List Char}
    (h : Form.ofWord cs = .word name (some value)) : value.length < cs.length := by
  unfold Form.ofWord at h
  split at h
  · cases h
  · next hdrop =>
    cases h
    have hle := (List.dropWhile_sublist (· ≠ '=') (l := cs)).length_le
    rw [hdrop] at hle
    exact hle

theorem length_lt_of_ofArgument_word {arg : String} {name value : List Char}
    (h : Form.ofArgument arg = .word name (some value)) : value.length < arg.length := by
  unfold Form.ofArgument at h
  split at h
  · cases h
  · next cs _ hchars =>
    have hlt := length_lt_of_ofWord h
    rw [← String.length_toList, hchars]
    exact Nat.lt_add_right 2 hlt
  · cases h
  · cases h

theorem length_lt_of_ofArgument_letters {arg : String} {cs : List Char}
    (h : Form.ofArgument arg = .letters cs) : cs.length < arg.length := by
  unfold Form.ofArgument at h
  split at h
  · cases h
  · unfold Form.ofWord at h
    split at h <;> cases h
  · next hchars =>
    cases h
    rw [← String.length_toList, hchars]
    exact Nat.lt_succ_self _
  · cases h

/-- A field that does not stand for itself is supplied by a longer argument that does not either. -/
theorem Supplies.length_lt {arg f : String} (h : Supplies arg f) (hf : ¬Undashed f) :
    ¬Undashed arg ∧ f.length < arg.length := by
  rw [← ofArgument_eq_plain_iff]
  unfold Supplies at h
  split at h
  · next hplain =>
    subst h
    exact absurd (ofArgument_eq_plain_iff.mp hplain) hf
  · next name value hword =>
    subst h
    rw [hword, String.length_ofList]
    exact ⟨nofun, length_lt_of_ofArgument_word hword⟩
  · next cs hletters =>
    obtain ⟨c, hc⟩ := h
    have hlength := hc.length_le
    rw [List.length_cons, String.length_toList] at hlength
    rw [hletters]
    exact ⟨nofun, Nat.lt_trans hlength (length_lt_of_ofArgument_letters hletters)⟩
  · exact h.elim

section Supplied

variable {f : String}

theorem mem_addFields {fs : List String} :
    f ∈ (d.addFields fs).fields.getD [] ↔ f ∈ d.fields.getD [] ∨ f ∈ fs := by
  simp [Draft.addFields]

theorem fields_of_addJson (h : d.addJson = .ok d') : d'.fields = d.fields := by
  unfold Draft.addJson at h
  split at h <;> cases h
  rfl

theorem fields_of_addFlag {flag : Flag} (h : d.addFlag flag = .ok d') : d'.fields = d.fields := by
  unfold Draft.addFlag at h
  split at h <;> cases h
  rfl

theorem fields_of_addPath {s : String} (h : d.addPath verb s = .ok d') : d'.fields = d.fields := by
  unfold Draft.addPath at h
  split at h <;> cases h
  rfl

theorem fields_of_addPaths (h : args.foldlM (Draft.addPath verb) d = .ok d') :
    d'.fields = d.fields := by
  induction args generalizing d with
  | nil =>
    cases h
    rfl
  | cons arg args ih =>
    obtain ⟨d₁, hadd, h⟩ := bind_eq_ok_iff.mp h
    rw [ih h, fields_of_addPath hadd]

theorem mem_fields_of_scanWord {name : String} {value : Option String}
    (h : scanWord verb d name value = .ok (d', listing)) (hf : f ∈ d'.fields.getD []) :
    f ∈ d.fields.getD [] ∨ value = some f := by
  -- Only the option for fields adds any; every other word leaves them as they are.
  have hsame (hfields : d'.fields = d.fields) : f ∈ d.fields.getD [] ∨ value = some f := by
    rw [hfields] at hf
    exact .inl hf
  unfold scanWord at h
  split at h
  · split at h <;> cases h
    · exact (mem_addFields.mp hf).imp_right (by simp)
    · exact (mem_addFields.mp hf).imp_right (by simp [eq_comm])
  · split_ifs at h
    · cases h
      exact hsame rfl
    · obtain ⟨d₁, hadd, hd₁⟩ := map_eq_ok_iff.mp h
      cases hd₁
      exact hsame (fields_of_addJson hadd)
    · split at h
      · obtain ⟨d₁, hadd, hd₁⟩ := map_eq_ok_iff.mp h
        cases hd₁
        exact hsame (fields_of_addFlag hadd)
      · cases h
    · split at h <;> cases h

theorem mem_fields_of_scanLetters {cs : List Char}
    (h : scanLetters verb d cs = .ok (d', listing)) (hf : f ∈ d'.fields.getD []) :
    f ∈ d.fields.getD [] ∨ ∃ c, c :: f.toList <:+ cs := by
  induction cs generalizing d with
  | nil =>
    cases h
    exact .inl hf
  | cons c cs ih =>
    have hbehind (h : f ∈ d.fields.getD [] ∨ ∃ c, c :: f.toList <:+ cs) :
        f ∈ d.fields.getD [] ∨ ∃ c', c' :: f.toList <:+ c :: cs :=
      h.imp_right fun ⟨c', hc'⟩ => ⟨c', hc'.trans (List.suffix_cons c cs)⟩
    have hattached {cs' : List Char} {c' : Char} (hcs : c' :: cs' <:+ c :: cs)
        (hf : f ∈ (d.addFields [String.ofList cs']).fields.getD []) :
        f ∈ d.fields.getD [] ∨ ∃ c', c' :: f.toList <:+ c :: cs := by
      refine (mem_addFields.mp hf).imp_right fun hmem => ⟨c', ?_⟩
      rwa [List.mem_singleton.mp hmem, String.toList_ofList]
    unfold scanLetters at h
    split at h
    · split at h <;> cases h
      · exact (mem_addFields.mp hf).imp_right (by simp)
      · exact hattached (List.suffix_cons c _) hf
      · exact hattached (List.suffix_refl _) hf
    · split_ifs at h
      · have hmem := ih h
        exact hbehind hmem
      · split at h
        · cases h
        · split at h
          · next d₁ hadd =>
            have hmem := ih h
            rw [fields_of_addFlag hadd] at hmem
            exact hbehind hmem
          · cases h
      · split at h <;> cases h

/-- Every field is supplied by an argument. -/
theorem supplied_of_scan (h : scan verb listing d args = .ok d') (hf : f ∈ d'.fields.getD []) :
    f ∈ d.fields.getD [] ∨ ∃ arg ∈ args, Supplies arg f := by
  induction args generalizing d listing with
  | nil =>
    cases h
    exact .inl hf
  | cons arg args ih =>
    have hlater {d₁ : Draft} {listing₁ : Bool} (h : scan verb listing₁ d₁ args = .ok d')
        (hd₁ : f ∈ d₁.fields.getD [] → f ∈ d.fields.getD [] ∨ Supplies arg f) :
        f ∈ d.fields.getD [] ∨ ∃ a ∈ arg :: args, Supplies a f := by
      rcases ih h with hmem | ⟨a, ha, hsupplies⟩
      · exact (hd₁ hmem).imp_right fun hsupplies => ⟨arg, List.mem_cons_self, hsupplies⟩
      · exact .inr ⟨a, List.mem_cons_of_mem _ ha, hsupplies⟩
    rw [scan] at h
    split at h
    · rw [fields_of_addPaths h] at hf
      exact .inl hf
    · next name value hform =>
      obtain ⟨⟨d₁, listing₁⟩, hword, h⟩ := bind_eq_ok_iff.mp h
      refine hlater h fun hmem => (mem_fields_of_scanWord hword hmem).imp_right fun hvalue => ?_
      obtain ⟨cs, rfl, hcs⟩ := Option.map_eq_some_iff.mp hvalue
      simpa only [Supplies, hform] using hcs
    · next cs hform =>
      obtain ⟨⟨d₁, listing₁⟩, hletters, h⟩ := bind_eq_ok_iff.mp h
      refine hlater h fun hmem => (mem_fields_of_scanLetters hletters hmem).imp_right ?_
      intro hsuffix
      simpa only [Supplies, hform] using hsuffix
    · next hform =>
      split at h
      · refine hlater h fun hmem => (mem_addFields.mp hmem).imp_right fun hmem => ?_
        simpa only [Supplies, hform, eq_comm] using List.mem_singleton.mp hmem
      · obtain ⟨d₁, hpath, h⟩ := bind_eq_ok_iff.mp h
        refine hlater h fun hmem => .inl ?_
        rwa [fields_of_addPath hpath] at hmem

end Supplied

end Command

end NotebookCleaning
