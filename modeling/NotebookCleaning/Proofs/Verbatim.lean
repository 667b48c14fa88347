import NotebookCleaning.Proofs.CleanedDocument
import NotebookCleaning.Proofs.RoundTrip

/-!
# What is written back as it was

A text in the layout of the printer is that of a notebook whose numbers have any spelling. It is
read as that notebook with its numbers as they are stored, and what is then written differs from the
text in nothing but those numbers (`written_verbatim_iff`). A stored number is never shorter than it
was spelled, so no part of the text can make up for a difference in another one: two printed texts
that are equal are equal number by number.
-/

namespace NotebookCleaning

open Object Json Json.Reader

namespace Json

namespace Reader

theorem digits_of_all {b : UInt8} {ds : List UInt8} (h : (b :: ds).all isDigit = true) :
    Digits (b :: ds) :=
  ⟨List.cons_ne_nil b ds, List.all_eq_true.mp h⟩

theorem length_le_storedExponent {ds : List UInt8} (h : ExponentSpelling ds) :
    ds.length ≤ (storedExponent ds).length := by
  cases h with
  | absent => rfl
  | @present mark _ _ _ hsign hdigits =>
    obtain ⟨s, -, hstored, -⟩ := exists_sign mark hsign hdigits
    rw [hstored]
    rcases hsign with rfl | rfl | rfl <;> simp

theorem length_asciiText (bs : List UInt8) : (asciiText bs).toList.length = bs.length := by
  simp [asciiText]

theorem length_le_storedSpelling {text : String} (h : NumberText text) :
    text.toList.length ≤ (storedSpelling text).toList.length := by
  obtain ⟨sign, whole, fraction, exponent, hsign, hwhole, hfraction, hexponent, rfl⟩ := h.parts
  have hle := length_le_storedExponent hexponent
  rw [storedSpelling_parts hsign hwhole hfraction hexponent, length_asciiText, length_asciiText]
  simp only [List.length_append]
  omega

end Reader

namespace Printer

theorem append_inj_of_length_le {as bs cs ds : List Char} (h : as ++ bs = cs ++ ds)
    (has : as.length ≤ cs.length) (hbs : bs.length ≤ ds.length) : as = cs ∧ bs = ds := by
  -- The sums of the lengths are equal, so neither part can be shorter.
  have hlength := congrArg List.length h
  rw [List.length_append, List.length_append] at hlength
  exact List.append_inj h (by omega)

/-- Parts none of which is longer than the one at its place among others. -/
abbrev Fits : List (List Char) → List (List Char) → Prop :=
  List.Forall₂ fun p q => p.length ≤ q.length

variable {ps qs : List (List Char)} {opening closing : Char} {inside outside : Nat}

theorem length_following_le (sep : List Char) (h : Fits ps qs) :
    (following sep ps).length ≤ (following sep qs).length := by
  induction h with
  | nil => rfl
  | cons hpq _ ih =>
    simp only [following_cons, List.length_cons, List.length_append]
    omega

theorem following_inj {sep : List Char} (h : Fits ps qs)
    (heq : following sep ps = following sep qs) : ps = qs := by
  induction h with
  | nil => rfl
  | cons hpq hrest ih =>
    rw [following_cons, following_cons, List.cons.injEq, List.append_cancel_left_eq] at heq
    obtain ⟨rfl, htail⟩ := append_inj_of_length_le heq.2 hpq (length_following_le sep hrest)
    rw [ih htail]

theorem length_bracketed_le (h : Fits ps qs) :
    (bracketed opening closing inside outside ps).length ≤
      (bracketed opening closing inside outside qs).length := by
  rw [bracketed_eq_cons, bracketed_eq_cons]
  cases h with
  | nil => rfl
  | cons hpq hrest =>
    have hfollowing := length_following_le (newline inside) hrest
    simp only [body, List.length_cons, List.length_append]
    omega

theorem bracketed_inj (h : Fits ps qs) (heq : bracketed opening closing inside outside ps =
    bracketed opening closing inside outside qs) : ps = qs := by
  rw [bracketed_eq_cons, bracketed_eq_cons] at heq
  cases h with
  | nil => rfl
  | cons hpq hrest =>
    have hbody := List.append_cancel_left (List.cons.inj heq).2
    have hfollowing := length_following_le (newline inside) hrest
    obtain ⟨rfl, htail⟩ := append_inj_of_length_le hbody hpq (by
      simpa only [List.length_append] using Nat.add_le_add_right hfollowing _)
    rw [following_inj hrest (List.append_cancel_right htail)]

/-! ## Printing what is stored -/

variable {step width depth : Nat} {v : Json}

theorem pretty_stored_arr (items : List Json) : pretty step width (stored (.arr items)) =
    bracketed '[' ']' (width + step) width
      (items.map fun v => pretty step (width + step) v.stored) := by
  rw [stored, pretty_arr, storedItems_eq_map, List.map_map]
  rfl

theorem pretty_stored_obj (o : Object) : pretty step width (stored (.obj o)) =
    bracketed '\x7b' '\x7d' (width + step) width
      (o.map (entry fun v => pretty step (width + step) v.stored)) := by
  rw [stored, pretty_obj, storedEntries_eq_map, List.map_map]
  rfl

theorem fits_map {α : Type} {f g : α → List Char} {xs : List α}
    (h : ∀ x ∈ xs, (f x).length ≤ (g x).length) : Fits (xs.map f) (xs.map g) := by
  rw [Fits, List.forall₂_map_left_iff, List.forall₂_map_right_iff, List.forall₂_same]
  exact h

theorem fits_entry {f g : Json → List Char} {o : Object}
    (h : ∀ e ∈ o, (f e.2).length ≤ (g e.2).length) : Fits (o.map (entry f)) (o.map (entry g)) := by
  refine fits_map fun e he => ?_
  simp only [entry, List.length_append]
  exact Nat.add_le_add_left (Nat.add_le_add_left (h e he) _) _

theorem length_pretty_le (h : Spelled depth v) :
    (pretty step width v).length ≤ (pretty step width v.stored).length := by
  induction h generalizing width with
  | num hnum => exact length_le_storedSpelling hnum
  | arr _ ih =>
    rw [pretty_arr, pretty_stored_arr]
    exact length_bracketed_le (fits_map fun v hv => ih v hv)
  | obj _ _ _ ih =>
    rw [pretty_obj, pretty_stored_obj]
    exact length_bracketed_le (fits_entry fun e he => ih e he)
  | _ => rfl

/-- What is stored is printed like what was spelled just if every number is spelled as it is
stored. -/
theorem pretty_stored_eq_iff (h : Spelled depth v) :
    pretty step width v = pretty step width v.stored ↔ ∀ number ∈ v.numbers, Numeral number := by
  constructor
  · intro heq
    induction h generalizing width with
    | @num _ number hnum =>
      have hstored : number = storedSpelling number := String.toList_inj.mp heq
      simpa [numbers] using (storedSpelling_eq_self_iff hnum).mp hstored.symm
    | @arr _ items hitems ih =>
      rw [pretty_arr, pretty_stored_arr] at heq
      have hparts := bracketed_inj (fits_map fun v hv => length_pretty_le (hitems v hv)) heq
      rw [List.map_inj_left] at hparts
      exact forall_mem_numbers_arr.mpr fun v hv => ih v hv (hparts v hv)
    | @obj _ o _ _ hvalues ih =>
      rw [pretty_obj, pretty_stored_obj] at heq
      have hparts := bracketed_inj (fits_entry fun e he => length_pretty_le (hvalues e he)) heq
      rw [List.map_inj_left] at hparts
      refine forall_mem_numbers_obj.mpr fun e he => ?_
      have hvalue : pretty step (width + step) e.2 = pretty step (width + step) e.2.stored :=
        List.append_cancel_left (List.append_cancel_left (hparts e he))
      exact ih e he hvalue
    | _ => simp [numbers]
  · intro hnumbers
    rw [stored_of_legible (legible_iff_spelled.mpr ⟨h, hnumbers⟩)]

end Printer

end Json

/-- The configuration under which cleaning takes nothing away. -/
def Config.preserveEverything : Config where
  cellMetadata := .preserveAll
  preserveOutputs := true
  preserveCounts := true
  preserveNotebookMetadata := true

theorem Cell.clean_preserveEverything (cell : Cell) : cell.clean .preserveEverything = cell := by
  simp [clean, cleanMetadata, cleanCode, Config.preserveEverything]

namespace Notebook

theorem cleaned_preserveEverything (nb : Notebook) : nb.cleaned .preserveEverything = nb := by
  have hcells : cleanCells .preserveEverything nb.cells = nb.cells :=
    List.map_id'' Cell.clean_preserveEverything _
  apply ext_of_root
  rw [root_cleaned, hcells, putCells_cells]
  rfl

theorem Shape.stored {root : Object} (h : Shape root) : Shape (storedEntries root) where
  cells := by
    obtain ⟨cells, hcells⟩ := h.cells
    refine ⟨cells.map storedEntries, ?_⟩
    rw [get?_storedEntries, hcells, Option.map_some, Json.stored, storedItems_eq_map, List.map_map,
      List.map_map]
    rfl
  metadata v hv := by
    rw [get?_storedEntries, Option.map_eq_some_iff] at hv
    obtain ⟨w, hw, rfl⟩ := hv
    obtain ⟨m, rfl⟩ := h.metadata w hw
    exact ⟨storedEntries m, rfl⟩

/-- A notebook with its numbers as they are stored. -/
def stored (nb : Notebook) : Notebook where
  root := storedEntries nb.root
  shape := nb.shape.stored

variable {raw : Notebook}

theorem toJson_stored (raw : Notebook) : raw.stored.toJson = raw.toJson.stored := by
  rw [toJson, toJson, Json.stored]
  rfl

theorem ofText?_text_of_spelled (h : Spelled maxDepth raw.toJson) :
    ofText? raw.text = .ok raw.stored := by
  rw [ofText?, ofOctets?, text, parse_render_spelled h, ← toJson_stored]
  simp only [ofJson?_toJson]
  rfl

theorem text_stored_eq_iff (h : Spelled maxDepth raw.toJson) :
    raw.stored.text = raw.text ↔ ∀ number ∈ raw.toJson.numbers, Numeral number := by
  have hpretty : Printer.pretty 1 0 raw.toJson = Printer.pretty 1 0 raw.toJson.stored ↔
      ∀ number ∈ raw.toJson.numbers, Numeral number := Printer.pretty_stored_eq_iff h
  rw [← hpretty, ← toJson_stored]
  constructor
  · intro heq
    have hchars := String.toList_inj.mpr heq
    simp only [text, render, String.toList_append, String.toList_ofList] at hchars
    exact (List.append_cancel_right hchars).symm
  · intro heq
    rw [text, text, render, render, heq]

/-- A text in the layout of the printer is read, and what is read keeps everything of it but the
spelling of numbers; nothing is taken away when everything is preserved. It is written back as it
was just if every exponent in it has a small letter and a sign. -/
theorem written_verbatim_iff {raw : Notebook} (h : Spelled maxDepth raw.toJson) :
    ∃ nb, ofText? raw.text = .ok nb ∧ nb.toJson = raw.toJson.stored ∧
      nb.clean .preserveEverything = .ok nb ∧
      (nb.text = raw.text ↔ ∀ number ∈ raw.toJson.numbers, Numeral number) := by
  refine ⟨raw.stored, ofText?_text_of_spelled h, toJson_stored raw, ?_, text_stored_eq_iff h⟩
  rw [clean_of_valid (by decide), cleaned_preserveEverything]

/-- A notebook with a negative zero, a number of many digits, and two that have exponents. -/
def manySpellings : Notebook where
  root := [("cells", .arr []),
    ("n", .arr [.num "-0", .num "12345678901234567890.50", .num "2e-3", .num "1E5"])]
  shape := defect?_eq_none_iff.mp rfl

theorem spelled_manySpellings : Spelled maxDepth manySpellings.toJson := by
  have hzero : NumberText "-0" := ⟨[45], [48], [], [], .minus, .zero, .absent, .absent, rfl⟩
  have hlong : NumberText "12345678901234567890.50" :=
    ⟨[], Utf8.encode "12345678901234567890", [46, 53, 48], [], .plus,
      .positive (by decide) (digits_of_all rfl), .present (digits_of_all rfl), .absent, rfl⟩
  have hsmall : NumberText "2e-3" :=
    ⟨[], [50], [], [101, 45, 51], .plus, .positive (by decide) (digits_of_all rfl), .absent,
      .present (.inl rfl) (.inr (.inr rfl)) (digits_of_all rfl), rfl⟩
  have hlarge : NumberText "1E5" :=
    ⟨[], [49], [], [69, 53], .plus, .positive (by decide) (digits_of_all rfl), .absent,
      .present (.inr rfl) (.inl rfl) (digits_of_all rfl), rfl⟩
  refine .obj (by decide) (by decide) (List.forall_mem_cons.mpr ⟨.arr (by simp), ?_⟩)
  refine List.forall_mem_singleton.mpr (.arr ?_)
  simp [Spelled.num, hzero, hlong, hsmall, hlarge]

theorem written_verbatim_iff_manySpellings : Spelled maxDepth manySpellings.toJson ∧
    ∃ nb, ofText? manySpellings.text = .ok nb ∧ nb.toJson = manySpellings.toJson.stored ∧
      nb.clean .preserveEverything = .ok nb ∧
      (nb.text = manySpellings.text ↔ ∀ number ∈ manySpellings.toJson.numbers, Numeral number) :=
  ⟨spelled_manySpellings, written_verbatim_iff spelled_manySpellings⟩

def manySpellingsText : String :=
  "\x7b\n \"cells\": [],\n \"n\": [\n  -0,\n  12345678901234567890.50,\n  2e-3,\n  1E5\n ]\n\x7d\n"

def manyStoredText : String :=
  "\x7b\n \"cells\": [],\n \"n\": [\n  -0,\n  12345678901234567890.50,\n  2e-3,\n  1e+5\n ]\n\x7d\n"

/-- Only the last of the spellings is not the one that is stored, and the number is written in
another way. -/
theorem manySpellings_respelled : Spelled maxDepth manySpellings.toJson ∧
    manySpellings.text = manySpellingsText ∧
      (ofText? manySpellingsText).map text = .ok manyStoredText ∧
      manyStoredText ≠ manySpellingsText := by
  have hread : ofText? manySpellingsText = .ok manySpellings.stored := rfl
  have htext : manySpellings.stored.text = manyStoredText := by decide +kernel
  refine ⟨spelled_manySpellings, by decide +kernel, ?_, by decide +kernel⟩
  rw [hread, ← htext]
  rfl

end Notebook

end NotebookCleaning
