import NotebookCleaning.Proofs.Octets
import NotebookCleaning.Proofs.Reading

/-!
# Numbers as they are spelled and stored

A text may spell an exponent with either letter and without a sign; the reader stores it with a
small letter and a sign. `NumberText` says which texts spell a number and `Numeral` which of them
are stored, part by part. Every number that is read is stored as a numeral (`numeral_of_number`). A
number that a delimiter follows is read as its stored spelling (`number_of_numberText`), which is
the text itself just if it is a numeral (`storedSpelling_eq_self_iff`).
-/

namespace NotebookCleaning.Json

namespace Reader

open Read

variable {bs ds rest : List UInt8}

/-- No digit stands first. -/
def NoDigit (bs : List UInt8) : Prop := ∀ b ∈ bs.head?, isDigit b = false

structure Digits (ds : List UInt8) : Prop where
  nonempty : ds ≠ []
  digit : ∀ d ∈ ds, isDigit d = true

inductive SignText : List UInt8 → Prop where
  | plus : SignText []
  | minus : SignText [45]

inductive WholeText : List UInt8 → Prop where
  | zero : WholeText [48]
  | positive {b : UInt8} {ds : List UInt8} : b ≠ 48 → Digits (b :: ds) → WholeText (b :: ds)

inductive FractionText : List UInt8 → Prop where
  | absent : FractionText []
  | present {ds : List UInt8} : Digits ds → FractionText (46 :: ds)

inductive ExponentText : List UInt8 → Prop where
  | absent : ExponentText []
  | present {sign : UInt8} {ds : List UInt8} : sign = 43 ∨ sign = 45 → Digits ds →
    ExponentText (101 :: sign :: ds)

/-- The exponent of a number as a text may spell it. -/
inductive ExponentSpelling : List UInt8 → Prop where
  | absent : ExponentSpelling []
  | present {mark : UInt8} {sign ds : List UInt8} : mark = 101 ∨ mark = 69 →
    sign = [] ∨ sign = [43] ∨ sign = [45] → Digits ds → ExponentSpelling (mark :: (sign ++ ds))

/-- The text of a number as it is stored. -/
structure Numeral (text : String) : Prop where
  parts : ∃ sign whole fraction exponent, SignText sign ∧ WholeText whole ∧
    FractionText fraction ∧ ExponentText exponent ∧
    text = asciiText (sign ++ whole ++ fraction ++ exponent)

/-- The text of a number in any spelling. -/
structure NumberText (text : String) : Prop where
  parts : ∃ sign whole fraction exponent, SignText sign ∧ WholeText whole ∧
    FractionText fraction ∧ ExponentSpelling exponent ∧
    text = asciiText (sign ++ whole ++ fraction ++ exponent)

/-- The spelling in which an exponent is stored: it has a small letter and a sign. -/
def storedExponent : List UInt8 → List UInt8
  | [] => []
  | _ :: ds => 101 :: if ds.head? = some 43 ∨ ds.head? = some 45 then ds else 43 :: ds

def marksExponent (b : UInt8) : Bool := b == 101 || b == 69

/-- The spelling in which a number is stored. -/
def storedSpelling (text : String) : String :=
  let bs := Utf8.encode text
  asciiText (bs.takeWhile (!marksExponent ·) ++ storedExponent (bs.dropWhile (!marksExponent ·)))

/-! ## What is stored -/

theorem digit_of_mem_takeWhile : ∀ d ∈ bs.takeWhile isDigit, isDigit d = true :=
  List.all_eq_true.mp List.all_takeWhile

theorem digits_of_digits (h : digits bs = .ok (ds, rest)) : Digits ds := by
  unfold digits at h
  split at h
  · cases h
  · next b tail =>
    split at h
    · next hb =>
      cases h
      exact ⟨List.cons_ne_nil _ _, List.forall_mem_cons.mpr ⟨hb, digit_of_mem_takeWhile⟩⟩
    · cases h

theorem signText_signPart (bs : List UInt8) : SignText (signPart bs).1 := by
  unfold signPart
  split
  · exact .minus
  · exact .plus

theorem wholeText_of_integerPart (h : integerPart bs = .ok (ds, rest)) : WholeText ds := by
  unfold integerPart at h
  split at h
  · split at h <;> cases h
    exact .zero
  · next hzero =>
    -- A run of digits that began with a zero would have been the other case.
    have hdigits := digits_of_digits h
    unfold digits at h
    split at h
    · cases h
    · next b tail =>
      split at h <;> cases h
      exact .positive (fun hb => hzero tail (hb ▸ rfl)) hdigits

theorem fractionText_of_fractionPart (h : fractionPart bs = .ok (ds, rest)) : FractionText ds := by
  unfold fractionPart at h
  split at h
  · next tail =>
    split at h
    · cases h
    · next hne =>
      cases h
      exact .present ⟨hne, digit_of_mem_takeWhile⟩
  · cases h
    exact .absent

theorem exponentSign_eq_or (bs : List UInt8) :
    (exponentSign bs).1 = 43 ∨ (exponentSign bs).1 = 45 := by
  unfold exponentSign
  split <;> simp

theorem exponentText_of_exponentPart (h : exponentPart bs = .ok (ds, rest)) : ExponentText ds := by
  unfold exponentPart at h
  split at h
  · next b tail =>
    split at h
    · obtain ⟨digits, rest', hdigits, h⟩ := andThen_eq_ok_iff.mp h
      cases h
      exact .present (exponentSign_eq_or tail) (digits_of_digits hdigits)
    · cases h
      exact .absent
  · cases h
    exact .absent

theorem numeral_of_number {text : String} (h : number bs = .ok (text, rest)) : Numeral text := by
  obtain ⟨whole, bs₁, hwhole, h⟩ := andThen_eq_ok_iff.mp h
  obtain ⟨fraction, bs₂, hfraction, h⟩ := andThen_eq_ok_iff.mp h
  obtain ⟨exponent, bs₃, hexponent, h⟩ := andThen_eq_ok_iff.mp h
  cases h
  exact ⟨_, _, _, _, signText_signPart bs, wholeText_of_integerPart hwhole,
    fractionText_of_fractionPart hfraction, exponentText_of_exponentPart hexponent, rfl⟩

/-! ## Exponents -/

theorem Digits.head?_ne (h : Digits ds) {b : UInt8} (hb : isDigit b = false) :
    ds.head? ≠ some b := by
  intro hhead
  rw [h.digit b (List.mem_of_head? hhead)] at hb
  cases hb

theorem ExponentText.spelling (h : ExponentText ds) : ExponentSpelling ds := by
  cases h with
  | absent => exact .absent
  | @present sign ds hsign hdigits =>
    have hsigns : [sign] = [] ∨ [sign] = [43] ∨ [sign] = [45] := by
      rcases hsign with rfl | rfl <;> simp
    exact ExponentSpelling.present (.inl rfl) hsigns hdigits

theorem storedExponent_eq_self (h : ExponentText ds) : storedExponent ds = ds := by
  cases h with
  | absent => rfl
  | present hsign _ => rcases hsign with rfl | rfl <;> rfl

/-- The sign with which an exponent is stored is the one that the reader takes it to have. -/
theorem exists_sign (mark : UInt8) {sign : List UInt8}
    (hsign : sign = [] ∨ sign = [43] ∨ sign = [45]) (hds : Digits ds) : ∃ s, (s = 43 ∨ s = 45) ∧
      storedExponent (mark :: (sign ++ ds)) = 101 :: s :: ds ∧
      ∀ rest, exponentSign (sign ++ (ds ++ rest)) = (s, ds ++ rest) := by
  rcases hsign with rfl | rfl | rfl
  · refine ⟨43, .inl rfl, ?_, fun rest => ?_⟩
    · have hhead : ¬(ds.head? = some 43 ∨ ds.head? = some 45) :=
        not_or.mpr ⟨hds.head?_ne rfl, hds.head?_ne rfl⟩
      rw [List.nil_append, storedExponent, if_neg hhead]
    · cases ds with
      | nil => exact absurd rfl hds.nonempty
      | cons d tail =>
        have hd : d ≠ 45 ∧ d ≠ 43 := by
          constructor
          · rintro rfl
            exact hds.head?_ne (b := 45) rfl rfl
          · rintro rfl
            exact hds.head?_ne (b := 43) rfl rfl
        simp [exponentSign, hd]
  · exact ⟨43, .inl rfl, rfl, fun _ => rfl⟩
  · exact ⟨45, .inr rfl, rfl, fun _ => rfl⟩

theorem exponentText_storedExponent (h : ExponentSpelling ds) :
    ExponentText (storedExponent ds) := by
  cases h with
  | absent => exact .absent
  | @present mark _ _ _ hsign hdigits =>
    obtain ⟨s, hs, hstored, -⟩ := exists_sign mark hsign hdigits
    rw [hstored]
    exact .present hs hdigits

/-! ## Reading what is spelled -/

theorem takeWhile_digits (hds : ∀ d ∈ ds, isDigit d = true) (hrest : NoDigit rest) :
    (ds ++ rest).takeWhile isDigit = ds ∧ (ds ++ rest).dropWhile isDigit = rest := by
  rw [List.takeWhile_append_of_pos hds, List.dropWhile_append_of_pos hds]
  cases rest with
  | nil => simp
  | cons b tail =>
    have hb : isDigit b = false := hrest b rfl
    simp [hb]

theorem digits_append (hds : Digits ds) (hrest : NoDigit rest) :
    digits (ds ++ rest) = .ok (ds, rest) := by
  cases ds with
  | nil => exact absurd rfl hds.nonempty
  | cons b tail =>
    obtain ⟨hb, htail⟩ := List.forall_mem_cons.mp hds.digit
    obtain ⟨htake, hdrop⟩ := takeWhile_digits htail hrest
    rw [List.cons_append, digits, if_pos hb, htake, hdrop]

theorem integerPart_append (hds : WholeText ds) (hrest : NoDigit rest) :
    integerPart (ds ++ rest) = .ok (ds, rest) := by
  cases hds with
  | zero =>
    have hhead : (rest.head?.map isDigit).getD false = false := by
      cases rest with
      | nil => rfl
      | cons b tail => exact hrest b rfl
    simp [integerPart, hhead]
  | @positive b tail hb hdigits =>
    have hdefault : integerPart (b :: tail ++ rest) = digits (b :: tail ++ rest) := by
      unfold integerPart
      split
      · next heq => exact absurd (List.cons.inj heq).1 hb
      · rfl
    rw [hdefault, digits_append hdigits hrest]

theorem fractionPart_append (hds : FractionText ds) (hrest : NoDigit rest)
    (hpoint : 46 ∉ rest.head?) : fractionPart (ds ++ rest) = .ok (ds, rest) := by
  cases hds with
  | absent =>
    unfold fractionPart
    split
    · next heq =>
      rw [List.nil_append] at heq
      exact absurd (heq ▸ rfl) hpoint
    · rfl
  | @present ds hdigits =>
    obtain ⟨htake, hdrop⟩ := takeWhile_digits hdigits.digit hrest
    simp only [List.cons_append, fractionPart, htake, hdrop]
    cases ds with
    | nil => exact absurd rfl hdigits.nonempty
    | cons d tail => rfl

theorem exponentPart_append (hds : ExponentSpelling ds) (hrest : NoDigit rest)
    (hmark : ∀ b ∈ rest.head?, b ≠ 101 ∧ b ≠ 69) :
    exponentPart (ds ++ rest) = .ok (storedExponent ds, rest) := by
  cases hds with
  | absent =>
    cases rest with
    | nil => rfl
    | cons b tail =>
      obtain ⟨he, hE⟩ := hmark b rfl
      simp [exponentPart, storedExponent, he, hE]
  | @present mark sign ds hmark hsign hdigits =>
    obtain ⟨s, -, hstored, hread⟩ := exists_sign mark hsign hdigits
    rw [hstored, List.cons_append, List.append_assoc, exponentPart, if_pos hmark, hread]
    simp [digits_append hdigits hrest]

/-- What the printer puts behind a value: a comma or a line feed. -/
def Delimited (bs : List UInt8) : Prop := ∃ b tail, bs = b :: tail ∧ (b = 44 ∨ b = 10)

theorem head?_exponent (hds : ExponentSpelling ds) (h : Delimited rest) :
    ∀ b ∈ (ds ++ rest).head?, (b = 101 ∨ b = 69) ∨ b = 44 ∨ b = 10 := by
  obtain ⟨b', tail, rfl, hor⟩ := h
  intro b hb
  cases hds with
  | absent => exact .inr (Option.mem_some_iff.mp hb ▸ hor)
  | present hmark => exact .inl (Option.mem_some_iff.mp hb ▸ hmark)

theorem head?_fraction {exponent : List UInt8} (hds : FractionText ds)
    (hexponent : ExponentSpelling exponent) (h : Delimited rest) :
    ∀ b ∈ (ds ++ (exponent ++ rest)).head?, b = 46 ∨ (b = 101 ∨ b = 69) ∨ b = 44 ∨ b = 10 := by
  intro b hb
  cases hds with
  | absent => exact .inr (head?_exponent hexponent h b hb)
  | present => exact .inl (Option.mem_some_iff.mp hb).symm

theorem WholeText.exists_cons (h : WholeText ds) : ∃ b tail, ds = b :: tail ∧ isDigit b := by
  cases h with
  | zero => exact ⟨48, [], rfl, rfl⟩
  | @positive b tail _ hdigits => exact ⟨b, tail, rfl, hdigits.digit b List.mem_cons_self⟩

theorem signPart_append (hds : SignText ds) {whole : List UInt8} (hwhole : WholeText whole) :
    signPart (ds ++ (whole ++ rest)) = (ds, whole ++ rest) := by
  cases hds with
  | minus => rfl
  | plus =>
    obtain ⟨b, tail, rfl, hb⟩ := hwhole.exists_cons
    unfold signPart
    split
    · next heq =>
      rw [(List.cons.inj heq).1] at hb
      exact absurd hb (by decide)
    · rfl

/-! ## The octets of a number -/

theorem lt_of_isDigit {b : UInt8} (h : isDigit b = true) : b < 58 := by
  simp only [isDigit, Bool.and_eq_true, decide_eq_true_eq] at h
  exact UInt8.lt_of_le_of_lt h.2 (by decide)

/-- The octets before an exponent are small: digits, a sign, a point. -/
theorem lt_of_mem_mantissa {sign whole fraction : List UInt8} (hsign : SignText sign)
    (hwhole : WholeText whole) (hfraction : FractionText fraction) :
    ∀ b ∈ sign ++ whole ++ fraction, b < 58 := by
  have hdigits {ds : List UInt8} (h : Digits ds) : ∀ b ∈ ds, b < 58 :=
    fun b hb => lt_of_isDigit (h.digit b hb)
  simp only [List.forall_mem_append]
  refine ⟨⟨?_, ?_⟩, ?_⟩
  · cases hsign <;> simp
  · cases hwhole with
    | zero => simp
    | positive _ h => exact hdigits h
  · cases hfraction with
    | absent => simp
    | present h => exact List.forall_mem_cons.mpr ⟨by decide, hdigits h⟩

theorem ExponentSpelling.ascii (h : ExponentSpelling ds) : ∀ b ∈ ds, b < 128 := by
  cases h with
  | absent => simp
  | present hmark hsign hdigits =>
    refine List.forall_mem_cons.mpr ⟨?_, List.forall_mem_append.mpr ⟨?_, fun b hb => ?_⟩⟩
    · rcases hmark with rfl | rfl <;> decide
    · rcases hsign with rfl | rfl | rfl <;> simp
    · exact UInt8.lt_trans (lt_of_isDigit (hdigits.digit b hb)) (by decide)

theorem encode_asciiText (h : ∀ b ∈ bs, b < 128) : Utf8.encode (asciiText bs) = bs := by
  rw [asciiText, Utf8.encode_ofList]
  induction bs with
  | nil => rfl
  | cons b tail ih =>
    obtain ⟨hb, htail⟩ := List.forall_mem_cons.mp h
    have hlt : b.toNat < 128 := UInt8.lt_iff_toNat_lt.mp hb
    have hvalid : b.toNat.isValidChar := .inl (by omega)
    have htoNat : (Char.ofNat b.toNat).toNat = b.toNat := by
      rw [Char.ofNat, dif_pos hvalid]
      rfl
    rw [List.map_cons, Utf8.octets_cons, ih htail, Utf8.utf8EncodeChar_of_le (by omega), htoNat,
      UInt8.ofNat_toNat]
    rfl

section
variable {sign whole fraction exponent : List UInt8}

theorem encode_parts (hsign : SignText sign) (hwhole : WholeText whole)
    (hfraction : FractionText fraction) (hexponent : ExponentSpelling exponent) :
    Utf8.encode (asciiText (sign ++ whole ++ fraction ++ exponent)) =
      sign ++ whole ++ fraction ++ exponent := by
  refine encode_asciiText (List.forall_mem_append.mpr ⟨fun b hb => ?_, hexponent.ascii⟩)
  exact UInt8.lt_trans (lt_of_mem_mantissa hsign hwhole hfraction b hb) (by decide)

theorem storedSpelling_parts (hsign : SignText sign) (hwhole : WholeText whole)
    (hfraction : FractionText fraction) (hexponent : ExponentSpelling exponent) :
    storedSpelling (asciiText (sign ++ whole ++ fraction ++ exponent)) =
      asciiText (sign ++ whole ++ fraction ++ storedExponent exponent) := by
  have hunmarked : ∀ b ∈ sign ++ whole ++ fraction, (!marksExponent b) = true := by
    intro b hb
    have hlt := UInt8.lt_iff_toNat_lt.mp (lt_of_mem_mantissa hsign hwhole hfraction b hb)
    have hmark (m : UInt8) (hm : 58 ≤ m.toNat) : b ≠ m := by
      rintro rfl
      exact absurd hlt (Nat.not_lt.mpr hm)
    simp [marksExponent, hmark 101 (by decide), hmark 69 (by decide)]
  have hmarked : exponent.takeWhile (!marksExponent ·) = [] ∧
      exponent.dropWhile (!marksExponent ·) = exponent := by
    cases hexponent with
    | absent => exact ⟨rfl, rfl⟩
    | present hmark => rcases hmark with rfl | rfl <;> exact ⟨rfl, rfl⟩
  rw [storedSpelling, encode_parts hsign hwhole hfraction hexponent,
    List.takeWhile_append_of_pos hunmarked, List.dropWhile_append_of_pos hunmarked, hmarked.1,
    hmarked.2, List.append_nil]

end

variable {text : String}

theorem Numeral.numberText (h : Numeral text) : NumberText text := by
  obtain ⟨sign, whole, fraction, exponent, hsign, hwhole, hfraction, hexponent, htext⟩ := h.parts
  exact ⟨sign, whole, fraction, exponent, hsign, hwhole, hfraction, hexponent.spelling, htext⟩

theorem numeral_storedSpelling (h : NumberText text) : Numeral (storedSpelling text) := by
  obtain ⟨sign, whole, fraction, exponent, hsign, hwhole, hfraction, hexponent, rfl⟩ := h.parts
  exact ⟨sign, whole, fraction, _, hsign, hwhole, hfraction, exponentText_storedExponent hexponent,
    storedSpelling_parts hsign hwhole hfraction hexponent⟩

theorem storedSpelling_of_numeral (h : Numeral text) : storedSpelling text = text := by
  obtain ⟨sign, whole, fraction, exponent, hsign, hwhole, hfraction, hexponent, rfl⟩ := h.parts
  rw [storedSpelling_parts hsign hwhole hfraction hexponent.spelling,
    storedExponent_eq_self hexponent]

theorem storedSpelling_eq_self_iff (h : NumberText text) :
    storedSpelling text = text ↔ Numeral text := by
  constructor
  · intro heq
    rw [← heq]
    exact numeral_storedSpelling h
  · exact storedSpelling_of_numeral

/-- A number is read as its stored spelling. -/
theorem number_of_numberText (h : NumberText text) (hrest : Delimited rest) :
    number (Utf8.encode text ++ rest) = .ok (storedSpelling text, rest) := by
  obtain ⟨sign, whole, fraction, exponent, hsign, hwhole, hfraction, hexponent, rfl⟩ := h.parts
  have hafterWhole : NoDigit (fraction ++ (exponent ++ rest)) := by
    intro b hb
    rcases head?_fraction hfraction hexponent hrest b hb with rfl | (rfl | rfl) | rfl | rfl <;>
      decide
  have hafterFraction : NoDigit (exponent ++ rest) := by
    intro b hb
    rcases head?_exponent hexponent hrest b hb with (rfl | rfl) | rfl | rfl <;> decide
  have hpoint : 46 ∉ (exponent ++ rest).head? := by
    intro hb
    rcases head?_exponent hexponent hrest 46 hb with (h | h) | h | h <;> cases h
  have hafterExponent : NoDigit rest := by
    obtain ⟨b', tail, rfl, rfl | rfl⟩ := hrest <;> rintro b ⟨⟩ <;> decide
  have hmark : ∀ b ∈ rest.head?, b ≠ 101 ∧ b ≠ 69 := by
    obtain ⟨b', tail, rfl, rfl | rfl⟩ := hrest <;> rintro b ⟨⟩ <;> decide
  rw [encode_parts hsign hwhole hfraction hexponent,
    storedSpelling_parts hsign hwhole hfraction hexponent, number]
  simp only [List.append_assoc]
  rw [signPart_append hsign hwhole]
  simp only [integerPart_append hwhole hafterWhole, andThen_ok,
    fractionPart_append hfraction hafterFraction hpoint,
    exponentPart_append hexponent hafterExponent hmark]

/-- A number begins with a minus sign or a digit. -/
theorem exists_cons_of_numberText (h : NumberText text) :
    ∃ b tail, Utf8.encode text = b :: tail ∧ (b = 45 || isDigit b) = true := by
  obtain ⟨sign, whole, fraction, exponent, hsign, hwhole, hfraction, hexponent, rfl⟩ := h.parts
  rw [encode_parts hsign hwhole hfraction hexponent]
  obtain ⟨b, tail, rfl, hb⟩ := hwhole.exists_cons
  cases hsign with
  | plus => exact ⟨b, _, rfl, by simp [hb]⟩
  | minus => exact ⟨45, _, rfl, rfl⟩

end Reader

end NotebookCleaning.Json
