import NotebookCleaning.Proofs.QuotedText
import NotebookCleaning.Proofs.Spelling

/-!
# Reading what is printed

A spelled value that has been printed on several lines is read with its numbers as they are stored,
whatever its indentation (`value_pretty`); a legible value is read back as it is (`parse_render`).
The induction is on the spelled value. Each part of an array or of an object stands on a line of its
own and is followed by a comma or a line feed, so that a number among the parts ends where its text
does, and each loop of the reader takes one part in a round.
-/

namespace NotebookCleaning.Json

namespace Printer

variable {sep : List Char} {inside outside : Nat} {opening closing : Char}

/-- The parts behind the first one, each with the comma before it. -/
def following (sep : List Char) (parts : List (List Char)) : List Char :=
  parts.flatMap fun p => ',' :: (sep ++ p)

theorem following_cons (sep p : List Char) (ps : List (List Char)) :
    following sep (p :: ps) = ',' :: (sep ++ (p ++ following sep ps)) := by
  simp [following]

theorem separated_cons (sep p : List Char) (ps : List (List Char)) :
    separated sep (p :: ps) = sep ++ (p ++ following sep ps) := by
  induction ps generalizing p with
  | nil => simp [separated, following]
  | cons q qs ih => simp [separated, ih, following]

/-- What stands behind an opening bracket, up to the closing one. -/
def body (closing : Char) (inside outside : Nat) : List (List Char) → List Char
  | [] => [closing]
  | p :: ps => newline inside ++ (p ++ (following (newline inside) ps ++
      (newline outside ++ [closing])))

theorem bracketed_eq_cons (parts : List (List Char)) :
    bracketed opening closing inside outside parts =
      opening :: body closing inside outside parts := by
  cases parts with
  | nil => rfl
  | cons p ps => simp [bracketed, body, separated_cons]

theorem prettyItems_eq_map (step width : Nat) (items : List Json) :
    prettyItems step width items = items.map (pretty step width) := by
  induction items with
  | nil => rfl
  | cons v vs ih => rw [prettyItems, ih, List.map_cons]

/-- An entry of an object whose values are written with `text`. -/
def entry (text : Json → List Char) (e : String × Json) : List Char :=
  quoted e.1 ++ ([':', ' '] ++ text e.2)

theorem prettyEntries_eq_map (step width : Nat) (o : Object) :
    prettyEntries step width o = o.map (entry (pretty step width)) := by
  induction o with
  | nil => rfl
  | cons e es ih => rw [prettyEntries, ih, List.map_cons, entry, List.append_assoc]

theorem pretty_arr (step width : Nat) (items : List Json) : pretty step width (.arr items) =
    bracketed '[' ']' (width + step) width (items.map (pretty step (width + step))) := by
  rw [pretty, prettyItems_eq_map]

theorem pretty_obj (step width : Nat) (o : Object) : pretty step width (.obj o) =
    bracketed '\x7b' '\x7d' (width + step) width (o.map (entry (pretty step (width + step)))) := by
  rw [pretty, prettyEntries_eq_map]

end Printer

namespace Reader

open Read Utf8 Printer

variable {rest : List UInt8} {width : Nat}

/-! ## White space -/

theorem skipSpace_of_not_isSpace {b : UInt8} (hb : isSpace b = false) (bs : List UInt8) :
    skipSpace (b :: bs) = b :: bs := by
  simp [skipSpace, hb]

theorem skipSpace_cons_of_isSpace {b : UInt8} (hb : isSpace b = true) (bs : List UInt8) :
    skipSpace (b :: bs) = skipSpace bs := by
  simp [skipSpace, hb]

theorem skipSpace_newline (width : Nat) (bs : List UInt8) :
    skipSpace (octets (newline width) ++ bs) = skipSpace bs := by
  have hspaces : skipSpace (octets (List.replicate width ' ') ++ bs) = skipSpace bs := by
    induction width with
    | zero => rfl
    | succ n ih => exact (skipSpace_cons_of_isSpace rfl _).trans ih
  exact (skipSpace_cons_of_isSpace rfl _).trans hspaces

theorem value_of_skipSpace {bs bs' : List UInt8} (h : skipSpace bs = skipSpace bs')
    (spelled : Bool) (limit depth : Nat) :
    value spelled limit depth bs = value spelled limit depth bs' := by
  cases depth <;> simp only [value, valueWith, h]

/-- The first octet of a value: no white space and no closing bracket. -/
def StartsValue (bs : List UInt8) : Prop :=
  ∃ b tail, bs = b :: tail ∧ isSpace b = false ∧ b ≠ 93

theorem StartsValue.skipSpace_append {bs : List UInt8} (h : StartsValue bs) :
    skipSpace (bs ++ rest) = bs ++ rest := by
  obtain ⟨b, tail, rfl, hb, -⟩ := h
  exact skipSpace_of_not_isSpace hb _

/-! ## Elements -/

variable {bs : List UInt8}

theorem nextElement_first (h : StartsValue bs) :
    nextElement true (octets (newline width) ++ (bs ++ rest)) = .ok (true, bs ++ rest) := by
  rw [nextElement, skipSpace_newline, h.skipSpace_append]
  obtain ⟨b, tail, rfl, -, hb⟩ := h
  simp [hb]

theorem nextElement_following (h : StartsValue bs) :
    nextElement false (44 :: (octets (newline width) ++ (bs ++ rest))) =
      .ok (true, bs ++ rest) := by
  rw [nextElement, skipSpace_of_not_isSpace rfl]
  simp only [skipSpace_newline, h.skipSpace_append]
  obtain ⟨b, tail, rfl, -, hb⟩ := h
  simp [hb]

theorem nextElement_close (first : Bool) :
    nextElement first (octets (newline width) ++ 93 :: rest) = .ok (false, rest) := by
  rw [nextElement, skipSpace_newline, skipSpace_of_not_isSpace rfl]
  rfl

/-- How a text of values is read: each value, before a delimiter, as it is stored. -/
structure Reads (read : List UInt8 → Read Json) (text : Json → List Char) (v : Json) : Prop where
  starts : StartsValue (octets (text v))
  reads : ∀ rest, Delimited rest → read (octets (text v) ++ rest) = .ok (v.stored, rest)

variable {read : List UInt8 → Read Json} {text : Json → List Char} {inside outside : Nat}

theorem octets_following_cons (p : List Char) (ps : List (List Char)) :
    octets (following (newline inside) (p :: ps)) =
      44 :: (octets (newline inside) ++ (octets p ++ octets (following (newline inside) ps))) := by
  rw [following_cons, octets_cons, octets_append, octets_append]
  rfl

/-- A part is followed by the comma before the next one or by the line of the closing bracket. -/
theorem delimited_following (ps : List (List Char)) (rest : List UInt8) :
    Delimited (octets (following (newline inside) ps) ++ (octets (newline outside) ++ rest)) := by
  cases ps with
  | nil => exact ⟨10, _, rfl, .inr rfl⟩
  | cons p ps =>
    rw [octets_following_cons]
    exact ⟨44, _, rfl, .inl rfl⟩

theorem elements_following {items : List Json} (h : ∀ v ∈ items, Reads read text v) {n : Nat}
    (hn : items.length < n) (acc : List Json) :
    elements (fun acc bs => (read bs).andThen fun v rest => .ok (v :: acc, rest)) n false acc
      (octets (following (newline inside) (items.map text)) ++
        (octets (newline outside) ++ 93 :: rest)) =
          .ok ((storedItems items).reverse ++ acc, rest) := by
  induction items generalizing n acc with
  | nil =>
    obtain ⟨m, rfl⟩ := Nat.exists_eq_succ_of_ne_zero (Nat.ne_of_gt hn)
    rw [List.map_nil, elements, following, List.flatMap_nil, octets_nil, List.nil_append,
      nextElement_close]
    rfl
  | cons v vs ih =>
    obtain ⟨m, rfl⟩ := Nat.exists_eq_succ_of_ne_zero (Nat.ne_zero_of_lt hn)
    obtain ⟨hv, hvs⟩ := List.forall_mem_cons.mp h
    rw [List.map_cons, octets_following_cons, elements]
    simp only [List.cons_append, List.append_assoc]
    rw [nextElement_following hv.starts, andThen_ok, if_pos rfl,
      hv.reads _ (delimited_following _ _), andThen_ok, andThen_ok,
      ih hvs (Nat.lt_of_succ_lt_succ hn), storedItems, List.reverse_cons, List.append_assoc]
    rfl

/-- An array whose items are read as they are stored. -/
theorem array_body {items : List Json} (h : ∀ v ∈ items, Reads read text v) {limit : Nat}
    (hlimit : items.length < limit) :
    array limit read (octets (body ']' inside outside (items.map text)) ++ rest) =
      .ok (.arr (storedItems items), rest) := by
  obtain ⟨m, rfl⟩ := Nat.exists_eq_succ_of_ne_zero (Nat.ne_zero_of_lt hlimit)
  cases items with
  | nil => rfl
  | cons v vs =>
    obtain ⟨hv, hvs⟩ := List.forall_mem_cons.mp h
    have hclose : octets [']'] ++ rest = 93 :: rest := rfl
    simp only [List.map_cons, body, octets_append, List.append_assoc, hclose]
    rw [array, elements, nextElement_first hv.starts, andThen_ok, if_pos rfl,
      hv.reads _ (delimited_following _ _), andThen_ok, andThen_ok,
      elements_following hvs (Nat.lt_of_succ_lt_succ hlimit)]
    simp [storedItems]

/-! ## Members -/

/-- Whether a limit is enough for the octets of a string. -/
def KeyFits (limit : Nat) (key : String) : Prop :=
  (octets (key.toList.flatMap Printer.escape)).length < limit

variable {limit : Nat} {key : String} {v : Json} {o : Object}

theorem octets_quoted_append (key : String) (rest : List UInt8) : octets (quoted key) ++ rest =
    34 :: (octets (key.toList.flatMap Printer.escape) ++ 34 :: rest) := by
  rw [octets_quoted, List.cons_append, List.append_assoc]
  rfl

theorem nextKey_first (hkey : KeyFits limit key) :
    nextKey limit true (octets (newline width) ++ (octets (quoted key) ++ rest)) =
      .ok (some key, rest) := by
  rw [octets_quoted_append, nextKey, skipSpace_newline, skipSpace_of_not_isSpace rfl]
  simp [string_quoted key hkey]

theorem nextKey_following (hkey : KeyFits limit key) :
    nextKey limit false (44 :: (octets (newline width) ++ (octets (quoted key) ++ rest))) =
      .ok (some key, rest) := by
  rw [octets_quoted_append, nextKey, skipSpace_of_not_isSpace rfl]
  simp only [skipSpace_newline, skipSpace_of_not_isSpace (b := 34) rfl]
  simp [string_quoted key hkey]

theorem nextKey_close (first : Bool) :
    nextKey limit first (octets (newline width) ++ 125 :: rest) = .ok (none, rest) := by
  rw [nextKey, skipSpace_newline, skipSpace_of_not_isSpace rfl]
  rfl

/-- How an entry is read: its key is a string that fits, and a space may stand before its value. -/
structure ReadsEntry (limit : Nat) (read : List UInt8 → Read Json) (text : Json → List Char)
    (e : String × Json) : Prop where
  key : KeyFits limit e.1
  value : ∀ rest, Delimited rest →
    read (32 :: (octets (text e.2) ++ rest)) = .ok (e.2.stored, rest)

theorem member_entry {e : String × Json} (he : ReadsEntry limit read text e)
    (hrest : Delimited rest) :
    member read o e.1 (octets [':', ' '] ++ (octets (text e.2) ++ rest)) =
      .ok (o.insert e.1 e.2.stored, rest) := by
  have hcolon : octets [':', ' '] ++ (octets (text e.2) ++ rest) =
      58 :: 32 :: (octets (text e.2) ++ rest) := rfl
  rw [hcolon, member, colon, skipSpace_of_not_isSpace rfl]
  simp [he.value rest hrest]

theorem octets_entry (e : String × Json) : octets (entry text e) =
    octets (quoted e.1) ++ (octets [':', ' '] ++ octets (text e.2)) := by
  rw [entry, octets_append, octets_append]

theorem notMem_keys_of_nodup {e : String × Json} {es : Object}
    (hkeys : (Object.keys (o ++ e :: es)).Nodup) : e.1 ∉ Object.keys o := by
  intro hmem
  rw [Object.keys, List.map_append, List.nodup_append] at hkeys
  exact hkeys.2.2 e.1 hmem e.1 List.mem_cons_self rfl

theorem members_following {es : Object} (h : ∀ e ∈ es, ReadsEntry limit read text e) {n : Nat}
    (hn : es.length < n) (hkeys : (Object.keys (o ++ es)).Nodup) :
    members limit (member read) n false o
      (octets (following (newline inside) (es.map (entry text))) ++
        (octets (newline outside) ++ 125 :: rest)) = .ok (o ++ storedEntries es, rest) := by
  induction es generalizing n o with
  | nil =>
    obtain ⟨m, rfl⟩ := Nat.exists_eq_succ_of_ne_zero (Nat.ne_of_gt hn)
    rw [List.map_nil, members, following, List.flatMap_nil, octets_nil, List.nil_append,
      nextKey_close, storedEntries, List.append_nil]
    rfl
  | cons e es ih =>
    obtain ⟨m, rfl⟩ := Nat.exists_eq_succ_of_ne_zero (Nat.ne_zero_of_lt hn)
    obtain ⟨he, hes⟩ := List.forall_mem_cons.mp h
    have hsplit (e : String × Json) (es : Object) : o ++ e :: es = (o ++ [e]) ++ es := by simp
    have hkeys' : (Object.keys ((o ++ [(e.1, e.2.stored)]) ++ es)).Nodup := by
      rw [← hsplit]
      simpa [Object.keys] using hkeys
    rw [List.map_cons, octets_following_cons, octets_entry, members]
    simp only [List.cons_append, List.append_assoc]
    rw [nextKey_following he.key, andThen_ok]
    simp only
    rw [member_entry he (delimited_following _ _), andThen_ok,
      Object.insert_of_notMem (notMem_keys_of_nodup hkeys),
      ih hes (Nat.lt_of_succ_lt_succ hn) hkeys', storedEntries, ← hsplit]

/-- An object whose entries are read as they are stored, unless it spells a number. -/
theorem object_body (h : ∀ e ∈ o, ReadsEntry limit read text e) (hlimit : o.length < limit)
    (hkeys : (Object.keys o).Nodup) (hhead : (Object.keys o).head? ≠ some numberKey) :
    object true limit read (octets (body '\x7d' inside outside (o.map (entry text))) ++ rest) =
      .ok (.obj (storedEntries o), rest) := by
  cases o with
  | nil => rfl
  | cons e es =>
    obtain ⟨he, hes⟩ := List.forall_mem_cons.mp h
    have hclose : octets ['\x7d'] ++ rest = 125 :: rest := rfl
    have hkey : e.1 ≠ numberKey := fun heq => hhead (congrArg some heq)
    simp only [List.map_cons, body, octets_append, octets_entry, List.append_assoc, hclose]
    rw [object, nextKey_first he.key, andThen_ok]
    simp only [hkey, decide_false, Bool.and_false, Bool.false_eq_true, if_false]
    rw [member_entry he (delimited_following _ _), andThen_ok]
    have hnodup : (Object.keys (Object.insert e.1 e.2.stored [] ++ es)).Nodup := by
      simpa [Object.keys, Object.insert] using hkeys
    rw [members_following hes (Nat.lt_of_succ_lt hlimit) hnodup]
    rfl

/-! ## Values -/

theorem length_le_following (sep : List Char) {p : List Char} {ps : List (List Char)}
    (hp : p ∈ ps) :
    (octets p).length ≤ (octets (following sep ps)).length := by
  obtain ⟨qs, rs, rfl⟩ := List.append_of_mem hp
  simp only [following, List.flatMap_append, List.flatMap_cons, octets_append, octets_cons,
    List.length_append]
  omega

theorem length_parts_le_following (sep : List Char) (ps : List (List Char)) :
    ps.length ≤ (octets (following sep ps)).length := by
  induction ps with
  | nil => exact Nat.zero_le _
  | cons p ps ih =>
    have hcomma : (String.utf8EncodeChar ',').length = 1 := rfl
    have hcons : following sep (p :: ps) = ',' :: (sep ++ p) ++ following sep ps := rfl
    rw [hcons, octets_append, octets_cons, List.length_append, List.length_append, hcomma,
      List.length_cons]
    omega

theorem length_le_body (closing : Char) (inside outside : Nat) {p : List Char}
    {ps : List (List Char)} (hp : p ∈ ps) :
    (octets p).length ≤ (octets (body closing inside outside ps)).length := by
  cases ps with
  | nil => cases hp
  | cons q qs =>
    simp only [body, octets_append, List.length_append]
    rcases List.mem_cons.mp hp with rfl | hmem
    · omega
    · have hle := length_le_following (newline inside) hmem
      omega

theorem length_parts_le_body (closing : Char) (inside outside : Nat) (ps : List (List Char)) :
    ps.length ≤ (octets (body closing inside outside ps)).length := by
  cases ps with
  | nil => exact Nat.zero_le _
  | cons q qs =>
    have hqs := length_parts_le_following (newline inside) qs
    have hline : (octets (newline inside)).length ≠ 0 := by
      rw [newline, octets_cons]
      simp [String.utf8EncodeChar]
    simp only [body, octets_append, List.length_append, List.length_cons]
    omega

variable {step depth : Nat}

/-- An octet that may begin a number is none that may not. -/
theorem ne_of_beginsNumber {a b : UInt8} (hb : (b = 45 || isDigit b) = true)
    (ha : (a = 45 || isDigit a) = false) : b ≠ a := by
  rintro rfl
  rw [hb] at ha
  cases ha

theorem not_isSpace_of_beginsNumber {b : UInt8} (hb : (b = 45 || isDigit b) = true) :
    isSpace b = false := by
  have h32 := ne_of_beginsNumber hb (a := 32) rfl
  have h10 := ne_of_beginsNumber hb (a := 10) rfl
  have h9 := ne_of_beginsNumber hb (a := 9) rfl
  have h13 := ne_of_beginsNumber hb (a := 13) rfl
  simp [isSpace, h32, h10, h9, h13]

theorem startsValue_pretty (h : Spelled depth v) :
    StartsValue (octets (pretty step width v)) := by
  cases h with
  | null => exact ⟨110, _, rfl, rfl, by decide⟩
  | bool b =>
    cases b with
    | false => exact ⟨102, _, rfl, rfl, by decide⟩
    | true => exact ⟨116, _, rfl, rfl, by decide⟩
  | @num _ text hnum =>
    obtain ⟨b, tail, hoctets, hb⟩ := exists_cons_of_numberText hnum
    rw [pretty, ← encode_eq_octets, hoctets]
    exact ⟨b, tail, rfl, not_isSpace_of_beginsNumber hb, ne_of_beginsNumber hb rfl⟩
  | str s =>
    rw [pretty, octets_quoted]
    exact ⟨34, _, rfl, rfl, by decide⟩
  | arr h =>
    rw [pretty_arr, bracketed_eq_cons]
    exact ⟨91, _, rfl, rfl, by decide⟩
  | obj hkeys hhead h =>
    rw [pretty_obj, bracketed_eq_cons]
    exact ⟨123, _, rfl, rfl, by decide⟩

theorem exists_value_eq_valueWith (spelled : Bool) (limit depth : Nat) :
    ∃ inner, value spelled limit depth = valueWith spelled limit inner := by
  cases depth with
  | zero => exact ⟨none, rfl⟩
  | succ depth => exact ⟨some (value spelled limit depth), rfl⟩

theorem value_numberText {number : String} (h : NumberText number) (hrest : Delimited rest)
    (limit depth : Nat) :
    value true limit depth (encode number ++ rest) = .ok (.num (storedSpelling number), rest) := by
  obtain ⟨inner, hinner⟩ := exists_value_eq_valueWith true limit depth
  have hread := number_of_numberText h hrest
  obtain ⟨b, tail, hoctets, hb⟩ := exists_cons_of_numberText h
  rw [hoctets, List.cons_append] at hread ⊢
  rw [hinner, valueWith, skipSpace_of_not_isSpace (not_isSpace_of_beginsNumber hb)]
  simp only [if_neg (ne_of_beginsNumber hb (a := 110) rfl),
    if_neg (ne_of_beginsNumber hb (a := 116) rfl), if_neg (ne_of_beginsNumber hb (a := 102) rfl),
    if_pos hb, hread, andThen_ok]

theorem value_bracketed_array (limit depth : Nat) (parts : List (List Char)) :
    value true limit (depth + 1) (octets (bracketed '[' ']' inside outside parts) ++ rest) =
      array limit (value true limit depth) (octets (body ']' inside outside parts) ++ rest) := by
  have hopening : String.utf8EncodeChar '[' = [91] := rfl
  rw [bracketed_eq_cons, octets_cons, hopening, List.append_assoc, List.singleton_append, value,
    valueWith, skipSpace_of_not_isSpace rfl]
  rfl

theorem value_bracketed_object (limit depth : Nat) (parts : List (List Char)) :
    value true limit (depth + 1) (octets (bracketed '\x7b' '\x7d' inside outside parts) ++ rest) =
      object true limit (value true limit depth)
        (octets (body '\x7d' inside outside parts) ++ rest) := by
  have hopening : String.utf8EncodeChar '\x7b' = [123] := rfl
  rw [bracketed_eq_cons, octets_cons, hopening, List.append_assoc, List.singleton_append, value,
    valueWith, skipSpace_of_not_isSpace rfl]
  rfl

theorem value_array {items : List Json} (h : ∀ v ∈ items, Reads (value true limit depth) text v)
    (hlimit : items.length < limit) : value true limit (depth + 1)
      (octets (bracketed '[' ']' inside outside (items.map text)) ++ rest) =
        .ok (.arr (storedItems items), rest) :=
  (value_bracketed_array limit depth _).trans (array_body h hlimit)

theorem value_object (h : ∀ e ∈ o, ReadsEntry limit (value true limit depth) text e)
    (hlimit : o.length < limit) (hkeys : (Object.keys o).Nodup)
    (hhead : (Object.keys o).head? ≠ some numberKey) : value true limit (depth + 1)
      (octets (bracketed '\x7b' '\x7d' inside outside (o.map (entry text))) ++ rest) =
        .ok (.obj (storedEntries o), rest) :=
  (value_bracketed_object limit depth _).trans (object_body h hlimit hkeys hhead)

/-- A limit that is enough for a bracketed list of parts is enough for each part and for their
number. -/
theorem limit_of_bracketed {opening closing : Char} {parts : List (List Char)}
    (h : (octets (bracketed opening closing inside outside parts)).length < limit) :
    (∀ p ∈ parts, (octets p).length < limit) ∧ parts.length < limit := by
  rw [bracketed_eq_cons, octets_cons, List.length_append] at h
  constructor
  · intro p hp
    have hle := length_le_body closing inside outside hp
    omega
  · have hle := length_parts_le_body closing inside outside parts
    omega

theorem limit_of_entry {e : String × Json} (h : (octets (entry text e)).length < limit) :
    KeyFits limit e.1 ∧ (octets (text e.2)).length < limit := by
  rw [octets_entry, octets_quoted] at h
  simp only [List.length_append, List.length_cons] at h
  exact ⟨by unfold KeyFits; omega, by omega⟩

/-- A spelled value that is printed on several lines, however indented, is read as it is stored. -/
theorem value_pretty (h : Spelled depth v)
    (hlimit : (octets (pretty step width v)).length < limit) (hrest : Delimited rest) :
    value true limit depth (octets (pretty step width v) ++ rest) = .ok (v.stored, rest) := by
  induction h generalizing width rest with
  | null =>
    obtain ⟨inner, hinner⟩ := exists_value_eq_valueWith true limit _
    rw [hinner]
    rfl
  | bool b =>
    obtain ⟨inner, hinner⟩ := exists_value_eq_valueWith true limit _
    rw [hinner]
    cases b <;> rfl
  | num hnum =>
    rw [pretty, ← encode_eq_octets, value_numberText hnum hrest, stored]
  | str s =>
    obtain ⟨inner, hinner⟩ := exists_value_eq_valueWith true limit _
    rw [pretty, octets_quoted, List.length_cons, List.length_append] at hlimit
    rw [pretty, octets_quoted_append, hinner, valueWith, skipSpace_of_not_isSpace rfl]
    simp [isDigit, stored, string_quoted s (Nat.lt_of_le_of_lt (by omega) hlimit)]
  | arr hitems ih =>
    rw [pretty_arr] at hlimit ⊢
    obtain ⟨hparts, hcount⟩ := limit_of_bracketed hlimit
    rw [List.length_map] at hcount
    refine value_array (fun v hv => ⟨startsValue_pretty (hitems v hv), fun rest hrest => ?_⟩) hcount
    exact ih v hv (hparts _ (List.mem_map_of_mem hv)) hrest
  | obj hkeys hhead hvalues ih =>
    rw [pretty_obj] at hlimit ⊢
    obtain ⟨hparts, hcount⟩ := limit_of_bracketed hlimit
    rw [List.length_map] at hcount
    refine value_object (fun e he => ?_) hcount hkeys hhead
    obtain ⟨hkey, hvalue⟩ := limit_of_entry (hparts _ (List.mem_map_of_mem he))
    refine ⟨hkey, fun rest hrest => ?_⟩
    rw [value_of_skipSpace (skipSpace_cons_of_isSpace rfl _)]
    exact ih e he hvalue hrest

end Reader

open Reader Utf8

theorem encode_render (v : Json) (step : Nat) :
    encode (v.render step ++ "\n") = octets (Printer.pretty step 0 v) ++ [10] := by
  rw [encode_eq_octets, String.toList_append, octets_append, render, String.toList_ofList]
  rfl

/-- The printed text of a spelled value, with a line feed behind it, holds the stored value. -/
theorem parse_render_spelled {v : Json} (h : Spelled maxDepth v) (step : Nat) :
    parse (encode (v.render step ++ "\n")) = .ok v.stored := by
  have hlimit : (octets (Printer.pretty step 0 v)).length <
      (octets (Printer.pretty step 0 v) ++ [10]).length + 1 := by
    rw [List.length_append]
    omega
  have hread := value_pretty h hlimit ⟨10, [], rfl, .inr rfl⟩
  rw [parse, whole, encode_render, hread]
  rfl

/-- A legible value is the one that its printed text holds, with a line feed behind it. -/
theorem parse_render {v : Json} (h : Legible maxDepth v) (step : Nat) :
    parse (encode (v.render step ++ "\n")) = .ok v := by
  rw [parse_render_spelled (legible_iff_spelled.mp h).1, stored_of_legible h]

end NotebookCleaning.Json
