import NotebookCleaning.Text.Line

/-!
# Pieces and lines of a text

Cutting a text into pieces and joining pieces undo each other as long as no piece holds the
separator (`split_join`). The lines of a text are its pieces between line feeds, but for a carriage
return at the end of a piece that a line feed follows (`mem_lines_iff`).
-/

namespace NotebookCleaning.Line

variable {sep : Char} {p cs : List Char} {ps : List (List Char)}

theorem mem_of_mem_split {c : Char} (hp : p ∈ split sep cs) (hc : c ∈ p) : c ≠ sep ∧ c ∈ cs := by
  induction cs generalizing p with
  | nil =>
    rw [split, List.mem_singleton] at hp
    rw [hp] at hc
    cases hc
  | cons d cs ih =>
    have hlater : ∀ q ∈ split sep cs, c ∈ q → c ≠ sep ∧ c ∈ d :: cs :=
      fun q hq hc => (ih hq hc).imp_right (List.mem_cons_of_mem d)
    rw [split] at hp
    split at hp
    · rcases List.mem_cons.mp hp with rfl | hp
      · cases hc
      · exact hlater p hp hc
    · next hd =>
      split at hp
      · next hnil => exact absurd hnil (split_ne_nil sep cs)
      · next q qs hsplit =>
        rw [hsplit] at hlater
        rcases List.mem_cons.mp hp with rfl | hp
        · rcases List.mem_cons.mp hc with rfl | hc
          · exact ⟨hd, List.mem_cons_self⟩
          · exact hlater q List.mem_cons_self hc
        · exact hlater p (List.mem_cons_of_mem q hp) hc

theorem split_eq_singleton (h : sep ∉ p) : split sep p = [p] := by
  induction p with
  | nil => rfl
  | cons c p ih =>
    rw [List.mem_cons, not_or] at h
    rw [split, if_neg (Ne.symm h.1), ih h.2]

/-- A separator ends the pieces before it and begins those behind it. -/
theorem split_append_cons (sep : Char) (cs ds : List Char) :
    split sep (cs ++ sep :: ds) = split sep cs ++ split sep ds := by
  induction cs with
  | nil => simp [split]
  | cons c cs ih =>
    rw [List.cons_append, split, split, ih]
    split
    · rfl
    · cases hsplit : split sep cs with
      | nil => exact absurd hsplit (split_ne_nil sep cs)
      | cons p ps => rfl

/-- Pieces without the separator are the pieces of what they are joined to. -/
theorem split_join (hps : ps ≠ []) (h : ∀ p ∈ ps, sep ∉ p) : split sep (join sep ps) = ps := by
  induction ps with
  | nil => exact absurd rfl hps
  | cons p ps ih =>
    obtain ⟨hp, hps'⟩ := List.forall_mem_cons.mp h
    by_cases hnil : ps = []
    · subst hnil
      exact split_eq_singleton hp
    · rw [join_cons sep p hnil, split_append_cons, split_eq_singleton hp, ih hnil hps']
      rfl

theorem dropReturn_eq_iff {line : List Char} (h : line.getLast? ≠ some '\r') :
    dropReturn p = line ↔ p = line ∨ p = line ++ ['\r'] := by
  unfold dropReturn
  split
  · next hreturn =>
    obtain ⟨q, rfl⟩ := List.getLast?_eq_some_iff.mp hreturn
    rw [List.dropLast_concat, List.append_left_inj]
    constructor
    · exact .inr
    · rintro (rfl | heq)
      · exact absurd hreturn h
      · exact heq
  · next hreturn =>
    constructor
    · exact .inl
    · rintro (rfl | rfl)
      · rfl
      · exact absurd List.getLast?_concat hreturn

/-- A line stands between two separators, or before a line feed with a carriage return behind it. -/
theorem mem_lines_iff {line : List Char} (hne : line ≠ []) (h : line.getLast? ≠ some '\r') :
    line ∈ lines cs ↔ line ∈ split '\n' cs ∨ line ++ ['\r'] ∈ (split '\n' cs).dropLast := by
  obtain ⟨pieces, last, hsplit⟩ : ∃ pieces last, split '\n' cs = pieces ++ [last] :=
    ⟨_, _, (List.dropLast_concat_getLast (split_ne_nil '\n' cs)).symm⟩
  have hlast : line ∈ [last].filter (· ≠ []) ↔ line = last := by
    rw [List.mem_filter, List.mem_singleton, decide_eq_true_eq, and_iff_left hne]
  have hlines : lines cs = pieces.map dropReturn ++ [last].filter (· ≠ []) := by
    rw [lines, hsplit, List.dropLast_concat, List.getLast?_concat]
    rfl
  rw [hlines, hsplit, List.dropLast_concat, List.mem_append, List.mem_append, List.mem_map, hlast,
    List.mem_singleton]
  constructor
  · rintro (⟨p, hp, hline⟩ | heq)
    · rcases (dropReturn_eq_iff h).mp hline with rfl | rfl
      · exact .inl (.inl hp)
      · exact .inr hp
    · exact .inl (.inr heq)
  · rintro ((hp | heq) | hp)
    · exact .inl ⟨line, hp, (dropReturn_eq_iff h).mpr (.inl rfl)⟩
    · exact .inr heq
    · exact .inl ⟨_, hp, (dropReturn_eq_iff h).mpr (.inr rfl)⟩

theorem mem_dropLast_iff {α : Type} {x : α} {xs : List α} :
    x ∈ xs.dropLast ↔ ∃ before after, xs = before ++ x :: after ∧ after ≠ [] := by
  constructor
  · intro h
    obtain ⟨before, after, hdrop⟩ := List.append_of_mem h
    have hxs : xs ≠ [] := by
      rintro rfl
      cases h
    refine ⟨before, after ++ [xs.getLast hxs], ?_, List.concat_ne_nil _ _⟩
    rw [← List.cons_append, ← List.append_assoc, ← hdrop, List.dropLast_concat_getLast]
  · rintro ⟨before, after, rfl, hafter⟩
    rw [List.dropLast_append_of_ne_nil (List.cons_ne_nil x after),
      List.dropLast_cons_of_ne_nil hafter]
    exact List.mem_append_right _ List.mem_cons_self

end NotebookCleaning.Line
