import NotebookCleaning.Proofs.CleanedText

/-!
# What a reader can make of a printed value

A value is writable if it is legible but for objects that begin with `numberKey`. What a reader
makes of its text, if it does not refuse it, differs from the value in such objects only: each of
them is read as the number that it spells (`reread_of_render`). Reading takes each part of the text
for a part of the value, so the induction is on the value, as it is for legible ones.
-/

namespace NotebookCleaning.Json

open Object Reader

/-- Legible values, and what arrays and objects without repeated keys make of them. -/
inductive Writable : Nat → Json → Prop where
  | legible {depth : Nat} {v : Json} : Legible depth v → Writable depth v
  | arr {depth : Nat} {items : List Json} : (∀ v ∈ items, Writable depth v) →
    Writable (depth + 1) (.arr items)
  | obj {depth : Nat} {o : Object} : (keys o).Nodup → (∀ e ∈ o, Writable depth e.2) →
    Writable (depth + 1) (.obj o)

mutual

/-- The first value can be read as the second one from its text. -/
inductive Reread : Json → Json → Prop where
  | same {depth : Nat} {v : Json} : Legible depth v → Reread v v
  | arr {items ws : List Json} : List.Forall₂ Reread items ws → Reread (.arr items) (.arr ws)
  | obj {o p : Object} : (keys o).head? ≠ some numberKey → List.Forall₂ RereadEntry o p →
    Reread (.obj o) (.obj p)
  | number {s text : String} : wholeNumber s = .ok text →
    Reread (.obj [(numberKey, .str s)]) (.num text)

inductive RereadEntry : String × Json → String × Json → Prop where
  | mk (key : String) {v w : Json} : Reread v w → RereadEntry (key, v) (key, w)

end

variable {depth : Nat} {v w : Json} {o p : Object} {k : String}

theorem writable_obj_iff : Writable (depth + 1) (.obj o) ↔
    (keys o).Nodup ∧ ∀ key v, get? o key = some v → Writable depth v := by
  constructor
  · intro h
    cases h with
    | legible h =>
      have ho := legible_obj_iff.mp h
      exact ⟨ho.nodup, fun key v hv => .legible (ho.values key v hv)⟩
    | obj hkeys hvalues => exact ⟨hkeys, fun key v hv => hvalues _ (mem_of_get? hv)⟩
  · rintro ⟨hkeys, hvalues⟩
    exact .obj hkeys fun e he => hvalues e.1 e.2 (get?_of_mem hkeys he)

theorem Writable.insert (ho : Writable (depth + 1) (.obj o)) (hv : Writable depth v) (k : String) :
    Writable (depth + 1) (.obj (o.insert k v)) := by
  rw [writable_obj_iff] at ho ⊢
  exact ⟨nodup_keys_insert ho.1, forall_get?_insert ho.2 hv⟩

theorem Writable.modify {f : Json → Json} (ho : Writable (depth + 1) (.obj o))
    (hf : ∀ v, get? o k = some v → Writable depth (f v)) :
    Writable (depth + 1) (.obj (o.modify k f)) := by
  rw [writable_obj_iff] at ho ⊢
  rw [keys_modify]
  exact ⟨ho.1, forall_get?_modify ho.2 hf⟩

theorem Writable.restrict (ho : Writable (depth + 1) (.obj o)) (keep : String → Bool) :
    Writable (depth + 1) (.obj (o.restrict keep)) := by
  rw [writable_obj_iff] at ho ⊢
  rw [keys_restrict]
  exact ⟨ho.1.filter _, forall_get?_restrict ho.2 keep⟩

/-! ## What has been read -/

theorem get?_of_rereadEntries (h : List.Forall₂ RereadEntry o p) (hv : get? o k = some v) :
    ∃ w, get? p k = some w ∧ Reread v w := by
  induction h with
  | nil => cases hv
  | cons he _ ih =>
    obtain ⟨key, hvalue⟩ := he
    rw [get?_cons] at hv ⊢
    split at hv
    · next hkey =>
      cases hv
      exact ⟨_, if_pos hkey, hvalue⟩
    · next hkey =>
      rw [if_neg hkey]
      exact ih hv

/-- An object that is read as an object is read key by key. -/
theorem Reread.get? (h : Reread (.obj o) (.obj p)) (hv : Object.get? o k = some v) :
    ∃ w, Object.get? p k = some w ∧ Reread v w := by
  cases h with
  | same h =>
    cases h with
    | obj hkeys hhead hvalues => exact ⟨v, hv, .same (hvalues _ (mem_of_get? hv))⟩
  | obj hhead hentries => exact get?_of_rereadEntries hentries hv

theorem Reread.items {items ws : List Json} (h : Reread (.arr items) (.arr ws)) :
    List.Forall₂ Reread items ws := by
  cases h with
  | same h =>
    cases h with
    | arr hitems => exact List.forall₂_same.mpr fun v hv => .same (hitems v hv)
  | arr hitems => exact hitems

/-- What is read as an object does not begin as a number. -/
theorem Reread.beginsAsNumber_eq_false (h : Reread v (.obj p)) : v.beginsAsNumber = false := by
  cases h with
  | same h => exact beginsAsNumber_of_legible h
  | obj hhead _ => exact beginsAsNumber_obj_eq_false_iff.mpr hhead

/-! ## Reading a writable value -/

namespace Reader

open Read Utf8 Printer

variable {inside outside limit step width : Nat} {rest rest' : List UInt8}

/-- If a value is read from the text before a delimiter, all of the text has been read for it. -/
def Retraces (limit depth step width : Nat) (v : Json) : Prop :=
  ∀ ⦃rest w rest'⦄, Delimited rest →
    value true limit depth (octets (pretty step width v) ++ rest) = .ok (w, rest') →
    rest' = rest ∧ Reread v w

theorem startsValue_writable (h : Writable depth v) :
    StartsValue (octets (pretty step width v)) := by
  cases h with
  | legible h => exact startsValue_pretty (legible_iff_spelled.mp h).1
  | arr h =>
    rw [pretty_arr, bracketed_eq_cons]
    exact ⟨91, _, rfl, rfl, by decide⟩
  | obj hkeys h =>
    rw [pretty_obj, bracketed_eq_cons]
    exact ⟨123, _, rfl, rfl, by decide⟩

theorem retraces_legible (h : Legible depth v)
    (hlimit : (octets (pretty step width v)).length < limit) :
    Retraces limit depth step width v := by
  intro rest w rest' hrest hread
  rw [value_pretty (legible_iff_spelled.mp h).1 hlimit hrest, stored_of_legible h] at hread
  cases hread
  exact ⟨rfl, .same h⟩

theorem reread_of_elements {items : List Json} (hwritable : ∀ v ∈ items, Writable depth v)
    (h : ∀ v ∈ items, Retraces limit depth step inside v) {n : Nat} {acc a : List Json}
    (hread : elements
      (fun acc bs => (value true limit depth bs).andThen fun v rest => .ok (v :: acc, rest)) n false
      acc (octets (following (newline inside) (items.map (pretty step inside))) ++
        (octets (newline outside) ++ 93 :: rest)) = .ok (a, rest')) :
    rest' = rest ∧ ∃ ws, a = ws.reverse ++ acc ∧ List.Forall₂ Reread items ws := by
  induction items generalizing n acc with
  | nil =>
    cases n with
    | zero => cases hread
    | succ n =>
      rw [List.map_nil, elements, following, List.flatMap_nil, octets_nil, List.nil_append,
        nextElement_close] at hread
      cases hread
      exact ⟨rfl, [], rfl, .nil⟩
  | cons v vs ih =>
    obtain ⟨hw, hws⟩ := List.forall_mem_cons.mp hwritable
    obtain ⟨hv, hvs⟩ := List.forall_mem_cons.mp h
    cases n with
    | zero => cases hread
    | succ n =>
      rw [List.map_cons, octets_following_cons, elements] at hread
      simp only [List.cons_append, List.append_assoc] at hread
      rw [nextElement_following (startsValue_writable hw), andThen_ok, if_pos rfl] at hread
      obtain ⟨acc', bs, hitem, hread⟩ := andThen_eq_ok_iff.mp hread
      obtain ⟨w, bs', hvalue, hitem⟩ := andThen_eq_ok_iff.mp hitem
      cases hitem
      obtain ⟨rfl, hvw⟩ := hv (delimited_following _ _) hvalue
      obtain ⟨hrest, ws, rfl, hrereads⟩ := ih hws hvs hread
      exact ⟨hrest, w :: ws, by simp, .cons hvw hrereads⟩

theorem reread_of_array {items : List Json} (hwritable : ∀ v ∈ items, Writable depth v)
    (h : ∀ v ∈ items, Retraces limit depth step inside v)
    (hread : array limit (value true limit depth)
      (octets (body ']' inside outside (items.map (pretty step inside))) ++ rest) =
        .ok (w, rest')) : rest' = rest ∧ Reread (.arr items) w := by
  obtain ⟨a, bs, helements, hread⟩ := andThen_eq_ok_iff.mp hread
  cases hread
  cases limit with
  | zero => cases helements
  | succ limit =>
    cases items with
    | nil =>
      cases helements
      exact ⟨rfl, .arr .nil⟩
    | cons v vs =>
      obtain ⟨hw, hws⟩ := List.forall_mem_cons.mp hwritable
      obtain ⟨hv, hvs⟩ := List.forall_mem_cons.mp h
      have hclose : octets [']'] ++ rest = 93 :: rest := rfl
      simp only [List.map_cons, body, octets_append, List.append_assoc, hclose] at helements
      rw [elements, nextElement_first (startsValue_writable hw), andThen_ok, if_pos rfl]
        at helements
      obtain ⟨acc', bs', hitem, helements⟩ := andThen_eq_ok_iff.mp helements
      obtain ⟨w, bs'', hvalue, hitem⟩ := andThen_eq_ok_iff.mp hitem
      cases hitem
      obtain ⟨rfl, hvw⟩ := hv (delimited_following _ _) hvalue
      obtain ⟨hrest, ws, rfl, hrereads⟩ := reread_of_elements hws hvs helements
      refine ⟨hrest, ?_⟩
      rw [List.reverse_append, List.reverse_reverse]
      exact .arr (.cons hvw hrereads)

/-! ### Objects -/

/-- How an entry is read, if it is read. -/
structure RetracesEntry (limit depth step width : Nat) (e : String × Json) : Prop where
  key : KeyFits limit e.1
  fits : (octets (pretty step width e.2)).length < limit
  writable : Writable depth e.2
  value : Retraces limit depth step width e.2

theorem skipSpace_value (h : Writable depth v) (rest : List UInt8) :
    skipSpace (32 :: (octets (pretty step width v) ++ rest)) =
      octets (pretty step width v) ++ rest :=
  (skipSpace_cons_of_isSpace rfl _).trans (startsValue_writable h).skipSpace_append

theorem reread_of_member {e : String × Json} (he : RetracesEntry limit depth step width e)
    (hrest : Delimited rest)
    (hread : member (value true limit depth) o e.1
      (octets [':', ' '] ++ (octets (pretty step width e.2) ++ rest)) = .ok (p, rest')) :
    rest' = rest ∧ ∃ w, p = o.insert e.1 w ∧ Reread e.2 w := by
  have hcolon : octets [':', ' '] ++ (octets (pretty step width e.2) ++ rest) =
      58 :: 32 :: (octets (pretty step width e.2) ++ rest) := rfl
  rw [hcolon, member, colon, skipSpace_of_not_isSpace rfl] at hread
  simp only [if_true, andThen_ok] at hread
  obtain ⟨w, bs, hvalue, hread⟩ := andThen_eq_ok_iff.mp hread
  cases hread
  rw [value_of_skipSpace (skipSpace_cons_of_isSpace rfl _)] at hvalue
  obtain ⟨rfl, hw⟩ := he.value hrest hvalue
  exact ⟨rfl, w, rfl, hw⟩

theorem reread_of_members {es : Object} (h : ∀ e ∈ es, RetracesEntry limit depth step inside e)
    (hkeys : (keys (o ++ es)).Nodup) {n : Nat}
    (hread : members limit (member (value true limit depth)) n false o
      (octets (following (newline inside) (es.map (entry (pretty step inside)))) ++
        (octets (newline outside) ++ 125 :: rest)) = .ok (p, rest')) :
    rest' = rest ∧ ∃ fs, p = o ++ fs ∧ List.Forall₂ RereadEntry es fs := by
  induction es generalizing n o with
  | nil =>
    cases n with
    | zero => cases hread
    | succ n =>
      rw [List.map_nil, members, following, List.flatMap_nil, octets_nil, List.nil_append,
        nextKey_close] at hread
      cases hread
      exact ⟨rfl, [], by simp, .nil⟩
  | cons e es ih =>
    obtain ⟨he, hes⟩ := List.forall_mem_cons.mp h
    cases n with
    | zero => cases hread
    | succ n =>
      rw [List.map_cons, octets_following_cons, octets_entry, members] at hread
      simp only [List.cons_append, List.append_assoc] at hread
      rw [nextKey_following he.key, andThen_ok] at hread
      obtain ⟨o', bs, hmember, hread⟩ := andThen_eq_ok_iff.mp hread
      obtain ⟨rfl, w, rfl, hw⟩ := reread_of_member he (delimited_following _ _) hmember
      rw [insert_of_notMem (notMem_keys_of_nodup hkeys)] at hread
      have hkeys' : (keys ((o ++ [(e.1, w)]) ++ es)).Nodup := by
        simpa [keys] using hkeys
      obtain ⟨hrest, fs, rfl, hfs⟩ := ih hes hkeys' hread
      exact ⟨hrest, (e.1, w) :: fs, by simp, .cons (.mk e.1 hw) hfs⟩

/-- Of all values only a string begins with a quote. -/
theorem exists_str_of_quote {tail : List UInt8} (h : Writable depth v)
    (hquote : octets (pretty step width v) ++ rest = 34 :: tail) : ∃ s, v = .str s := by
  cases v with
  | null => cases hquote
  | bool b => cases b <;> cases hquote
  | num text =>
    cases h with
    | legible h =>
      cases h with
      | num hnum =>
        obtain ⟨b, ds, hoctets, hb⟩ := exists_cons_of_numberText hnum.numberText
        rw [pretty, ← encode_eq_octets, hoctets] at hquote
        cases hquote
        cases hb
  | str s => exact ⟨s, rfl⟩
  | arr items =>
    rw [pretty_arr, bracketed_eq_cons] at hquote
    cases hquote
  | obj o =>
    rw [pretty_obj, bracketed_eq_cons] at hquote
    cases hquote

theorem reread_of_numberObject {es : Object} (hv : Writable depth v)
    (hlimit : (octets (pretty step inside v)).length < limit) {text : String}
    (hread : numberObject limit (octets [':', ' '] ++ (octets (pretty step inside v) ++
      (octets (following (newline inside) (es.map (entry (pretty step inside)))) ++
        (octets (newline outside) ++ 125 :: rest)))) = .ok (text, rest')) :
    rest' = rest ∧ es = [] ∧ ∃ s, v = .str s ∧ wholeNumber s = .ok text := by
  have hcolon (bs : List UInt8) : octets [':', ' '] ++ bs = 58 :: 32 :: bs := rfl
  rw [hcolon, numberObject, colon, skipSpace_of_not_isSpace rfl] at hread
  simp only [if_true, andThen_ok, skipSpace_value hv] at hread
  split at hread
  · next bs hquote =>
    obtain ⟨s, rfl⟩ := exists_str_of_quote hv hquote
    rw [pretty, octets_quoted, List.length_cons, List.length_append] at hlimit
    rw [pretty, octets_quoted_append] at hquote
    cases hquote
    rw [string_quoted s (by omega), andThen_ok] at hread
    split at hread
    · cases hread
    · next number hnumber =>
      cases es with
      | nil =>
        rw [List.map_nil, following, List.flatMap_nil, octets_nil, List.nil_append,
          skipSpace_newline, skipSpace_of_not_isSpace rfl] at hread
        cases hread
        exact ⟨rfl, rfl, s, rfl, hnumber⟩
      | cons e es =>
        rw [List.map_cons, octets_following_cons, List.cons_append,
          skipSpace_of_not_isSpace rfl] at hread
        cases hread
  · exact absurd hread refuse_ne_ok

theorem reread_of_object (h : ∀ e ∈ o, RetracesEntry limit depth step inside e)
    (hkeys : (keys o).Nodup)
    (hread : object true limit (value true limit depth)
      (octets (body '\x7d' inside outside (o.map (entry (pretty step inside)))) ++ rest) =
        .ok (w, rest')) : rest' = rest ∧ Reread (.obj o) w := by
  cases o with
  | nil =>
    cases hread
    exact ⟨rfl, .obj (by simp) .nil⟩
  | cons e es =>
    obtain ⟨he, hes⟩ := List.forall_mem_cons.mp h
    have hclose : octets ['\x7d'] ++ rest = 125 :: rest := rfl
    simp only [List.map_cons, body, octets_append, octets_entry, List.append_assoc, hclose] at hread
    rw [object, nextKey_first he.key, andThen_ok] at hread
    by_cases hkey : e.1 = numberKey
    · simp only [hkey, decide_true, Bool.and_true, if_true] at hread
      obtain ⟨text, bs, hnumber, hread⟩ := andThen_eq_ok_iff.mp hread
      cases hread
      obtain ⟨rfl, rfl, s, hs, htext⟩ :=
        reread_of_numberObject he.writable he.fits hnumber
      obtain ⟨k, v⟩ := e
      cases hkey
      cases hs
      exact ⟨rfl, .number htext⟩
    · simp only [hkey, decide_false, Bool.and_false, Bool.false_eq_true, if_false] at hread
      obtain ⟨p, bs, hmember, hread⟩ := andThen_eq_ok_iff.mp hread
      obtain ⟨q, bs', hmembers, hread⟩ := andThen_eq_ok_iff.mp hread
      cases hread
      obtain ⟨rfl, w, rfl, hw⟩ := reread_of_member he (delimited_following _ _) hmember
      have hnodup : (keys (Object.insert e.1 w [] ++ es)).Nodup := by
        simpa [keys, Object.insert] using hkeys
      obtain ⟨hrest, fs, rfl, hfs⟩ := reread_of_members hes hnodup hmembers
      exact ⟨hrest, .obj (by simpa using hkey) (.cons (.mk e.1 hw) hfs)⟩

/-- Whatever a reader makes of the text of a writable value, it has read all of the text and the
value part by part. -/
theorem retraces_pretty (h : Writable depth v)
    (hlimit : (octets (pretty step width v)).length < limit) :
    Retraces limit depth step width v := by
  induction h generalizing width with
  | legible h => exact retraces_legible h hlimit
  | arr hitems ih =>
    intro rest w rest' hrest hread
    rw [pretty_arr] at hlimit hread
    rw [value_bracketed_array] at hread
    obtain ⟨hparts, -⟩ := limit_of_bracketed hlimit
    exact reread_of_array hitems (fun v hv => ih v hv (hparts _ (List.mem_map_of_mem hv))) hread
  | obj hkeys hvalues ih =>
    intro rest w rest' hrest hread
    rw [pretty_obj] at hlimit hread
    rw [value_bracketed_object] at hread
    obtain ⟨hparts, -⟩ := limit_of_bracketed hlimit
    refine reread_of_object (fun e he => ?_) hkeys hread
    obtain ⟨hkey, hfits⟩ := limit_of_entry (hparts _ (List.mem_map_of_mem he))
    exact ⟨hkey, hfits, hvalues e he, ih e he hfits⟩

end Reader

open Reader Utf8

/-- What is read from the printed text of a writable value, with a line feed behind it. -/
theorem reread_of_render (h : Writable maxDepth v) {step : Nat}
    (hread : parse (encode (v.render step ++ "\n")) = .ok w) : Reread v w := by
  obtain ⟨rest', hvalue⟩ := exists_of_whole hread
  rw [encode_render] at hvalue
  refine (retraces_pretty h ?_ ⟨10, [], rfl, .inr rfl⟩ hvalue).2
  rw [List.length_append]
  omega

end NotebookCleaning.Json
