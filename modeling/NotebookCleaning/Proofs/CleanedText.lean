import NotebookCleaning.Proofs.Idempotence
import NotebookCleaning.Proofs.RoundTrip
import NotebookCleaning.Proofs.Soundness

/-!
# The text of a cleaned notebook

Cleaning takes entries out of the metadata of cells and out of the description of the language. If
the entry that comes first in what remains has `numberKey` as its key, a reader takes the object for
a number. A cleaned notebook is read back from its text exactly if this happens to none of them
(`legible_cleaned_iff`); nothing else that cleaning does makes a value illegible.
-/

namespace NotebookCleaning

open Object Json.Reader

namespace Json

/-- Whether a reader takes the value for a spelled number. -/
def beginsAsNumber : Json → Bool
  | .obj o => (keys o).head? = some numberKey
  | _ => false

variable {depth : Nat} {o : Object} {v : Json}

theorem beginsAsNumber_obj_eq_false_iff :
    (Json.obj o).beginsAsNumber = false ↔ (keys o).head? ≠ some numberKey :=
  decide_eq_false_iff_not

theorem beginsAsNumber_of_legible (h : Legible depth v) : v.beginsAsNumber = false := by
  cases h with
  | obj hkeys hhead hvalues => exact beginsAsNumber_obj_eq_false_iff.mpr hhead
  | _ => rfl

theorem beginsAsNumber_of_notMem (h : ∀ o, v = .obj o → numberKey ∉ keys o) :
    v.beginsAsNumber = false := by
  cases v with
  | obj o =>
    rw [beginsAsNumber_obj_eq_false_iff]
    exact fun hhead => h o rfl (List.mem_of_head? hhead)
  | _ => rfl

/-- Where an object has no key that makes it a number, nothing that remains of it begins as one. -/
theorem beginsAsNumber_restrict (keep : String → Bool) (h : numberKey ∉ keys o) :
    (Json.obj (o.restrict keep)).beginsAsNumber = false := by
  refine beginsAsNumber_of_notMem ?_
  rintro _ ⟨⟩ hmem
  rw [keys_restrict] at hmem
  exact h (List.mem_of_mem_filter hmem)

theorem LegibleObject.modify {k : String} {f : Json → Json} (h : LegibleObject depth o)
    (hf : ∀ v, get? o k = some v → Legible depth (f v)) : LegibleObject depth (o.modify k f) where
  nodup := by rw [keys_modify]; exact h.nodup
  head := by rw [keys_modify]; exact h.head
  values := forall_get?_modify h.values hf

/-- What remains of a legible object is legible if another key than `numberKey` comes first. -/
theorem LegibleObject.restrict {keep : String → Bool} (h : LegibleObject depth o)
    (hhead : (Json.obj (o.restrict keep)).beginsAsNumber = false) :
    LegibleObject depth (o.restrict keep) where
  nodup := by rw [keys_restrict]; exact h.nodup.filter _
  head := beginsAsNumber_obj_eq_false_iff.mp hhead
  values := forall_get?_restrict h.values keep

theorem legible_clearCount (h : Legible depth v) : Legible depth (clearCount v) := by
  cases v with
  | obj o =>
    cases depth with
    | zero => cases h
    | succ depth =>
      exact legible_obj_iff.mpr ((legible_obj_iff.mp h).modify fun _ _ => .null)
  | _ => exact h

theorem legible_clearCounts (h : Legible depth v) : Legible depth (clearCounts v) := by
  cases v with
  | arr items =>
    cases depth with
    | zero => cases h
    | succ depth =>
      rw [legible_arr_iff] at h
      refine legible_arr_iff.mpr fun w hw => ?_
      obtain ⟨item, hitem, rfl⟩ := List.mem_map.mp hw
      exact legible_clearCount (h item hitem)
  | _ => exact h

end Json

namespace Cell

open Json

variable {depth : Nat} {c : Config} {cell : Cell}

theorem legible_cleanCode (h : LegibleObject (depth + 1) cell) :
    LegibleObject (depth + 1) (cleanCode c cell) := by
  have hcount : LegibleObject (depth + 1) (if c.preserveCounts then cell
      else Object.insert "execution_count" .null cell) := by
    split
    · exact h
    · exact h.insert .null (.inl (by decide))
  unfold cleanCode
  dsimp only
  split
  · exact hcount.insert (.arr (by simp)) (.inl (by decide))
  · split
    · exact hcount.modify fun v hv => legible_clearCounts (hcount.values _ v hv)
    · exact hcount

theorem legible_metadata? (h : LegibleObject (depth + 1) cell) :
    LegibleObject depth (cell.metadata?.getD []) := by
  rw [metadata?]
  cases hget : get? cell "metadata" with
  | none => exact legibleObject_nil
  | some v =>
    have hv := h.values _ v hget
    cases v with
    | obj m => exact legible_obj_iff.mp hv
    | _ => exact legibleObject_nil

theorem legible_cleanMetadata {p : MetadataPolicy} (h : LegibleObject (depth + 1) cell)
    (hmetadata : ∀ v, get? (cleanMetadata p cell) "metadata" = some v → v.beginsAsNumber = false) :
    LegibleObject (depth + 1) (cleanMetadata p cell) := by
  cases p with
  | preserveAll => exact h
  | strip => exact h.insert (legible_obj_iff.mpr legibleObject_nil) (.inl (by decide))
  | preserve fields =>
    have hhead := hmetadata _ (by rw [cleanMetadata, get?_insert, if_pos rfl])
    have hkept := (legible_metadata? h).restrict hhead
    exact h.insert (legible_obj_iff.mpr hkept) (.inl (by decide))

theorem legible_clean (h : LegibleObject (depth + 1) cell)
    (hmetadata : ∀ v, get? (cell.clean c) "metadata" = some v → v.beginsAsNumber = false) :
    LegibleObject (depth + 1) (cell.clean c) := by
  refine legible_cleanMetadata ?_ hmetadata
  split
  · exact legible_cleanCode h
  · exact h

/-- Metadata without `numberKey` do not begin with it after cleaning. -/
theorem beginsAsNumber_metadata_clean
    (h : ∀ o, get? cell "metadata" = some (.obj o) → numberKey ∉ keys o) {v : Json}
    (hv : get? (cell.clean c) "metadata" = some v) : v.beginsAsNumber = false := by
  rw [get?_clean, cleanField_metadata] at hv
  split at hv
  · exact beginsAsNumber_of_notMem fun o ho => h o (ho ▸ hv)
  · cases hv
    rfl
  · cases hv
    refine beginsAsNumber_restrict _ ?_
    cases hw : get? cell "metadata" with
    | none => simp
    | some w =>
      cases w with
      | obj o => exact h o hw
      | _ => simp [object?]

end Cell

namespace Notebook

open Json

variable {depth : Nat} {c : Config} {nb : Notebook} {bs : List UInt8}

/-- The metadata of the cells and the description of the language. -/
def filteredValues (nb : Notebook) : List Json :=
  nb.cells.filterMap (get? · "metadata") ++
    (nb.metadata?.bind (get? · "language_info")).toList

/-- No object that cleaning takes entries out of begins as a number. -/
def Unmistakable (nb : Notebook) : Prop := ∀ v ∈ nb.filteredValues, v.beginsAsNumber = false

instance (nb : Notebook) : Decidable nb.Unmistakable :=
  inferInstanceAs (Decidable (∀ v ∈ nb.filteredValues, _))

theorem mem_filteredValues {v : Json} : v ∈ nb.filteredValues ↔
    (∃ cell ∈ nb.cells, get? cell "metadata" = some v) ∨
      ∃ m, nb.metadata? = some m ∧ get? m "language_info" = some v := by
  simp [filteredValues, Option.bind_eq_some_iff]

theorem legible_of_mem_cells (h : LegibleObject (depth + 2) nb.root) {cell : Cell}
    (hcell : cell ∈ nb.cells) : LegibleObject depth cell := by
  have hcells := legible_arr_iff.mp (h.values _ _ nb.get?_cells)
  exact legible_obj_iff.mp (hcells _ (List.mem_map_of_mem hcell))

theorem legible_of_metadata? (h : LegibleObject (depth + 1) nb.root) {m : Object}
    (hm : nb.metadata? = some m) : LegibleObject depth m := by
  refine legible_obj_iff.mp (h.values "metadata" (.obj m) ?_)
  rw [get?_metadata, hm]
  rfl

theorem unmistakable_of_legible (h : LegibleObject (depth + 2) nb.root) : nb.Unmistakable := by
  intro v hv
  rcases mem_filteredValues.mp hv with ⟨cell, hcell, hget⟩ | ⟨m, hm, hget⟩
  · exact beginsAsNumber_of_legible ((legible_of_mem_cells h hcell).values _ v hget)
  · exact beginsAsNumber_of_legible ((legible_of_metadata? h hm).values _ v hget)

theorem legible_putCells {root : Object} {cells : List Cell} (h : LegibleObject (depth + 2) root)
    (hcells : ∀ cell ∈ cells, LegibleObject depth cell) :
    LegibleObject (depth + 2) (putCells cells root) := by
  refine h.insert (legible_arr_iff.mpr fun v hv => ?_) (.inl (by decide))
  obtain ⟨cell, hcell, rfl⟩ := List.mem_map.mp hv
  exact legible_obj_iff.mpr (hcells cell hcell)

theorem legible_dropVersion {m : Object} (h : LegibleObject (depth + 1) m)
    (hinfo : ∀ v, get? (modify "language_info" (onObject (erase "version")) m) "language_info" =
      some v → v.beginsAsNumber = false) :
    LegibleObject (depth + 1) (modify "language_info" (onObject (erase "version")) m) := by
  refine h.modify fun v hv => ?_
  have hlegible := h.values _ v hv
  have hhead := hinfo _ (by rw [get?_modify, if_pos rfl, hv]; rfl)
  cases v with
  | obj info =>
    have hrest : LegibleObject depth (restrict (· != "version") info) :=
      (legible_obj_iff.mp hlegible).restrict hhead
    exact legible_obj_iff.mpr hrest
  | _ => exact hlegible

theorem legible_cleaned (h : LegibleObject (depth + 3) nb.root)
    (hnb : (nb.cleaned c).Unmistakable) : LegibleObject (depth + 3) (nb.cleaned c).root := by
  have hcells : ∀ cell ∈ cleanCells c nb.cells, LegibleObject (depth + 1) cell := by
    intro cell hcell
    obtain ⟨before, hbefore, rfl⟩ := List.mem_map.mp hcell
    refine Cell.legible_clean (legible_of_mem_cells h (mem_of_mem_keptCells hbefore)) ?_
    intro v hv
    refine hnb v (mem_filteredValues.mpr (.inl ⟨_, ?_, hv⟩))
    rwa [cells_cleaned]
  have hput := legible_putCells h hcells
  rw [root_cleaned, cleanDocument]
  split
  · exact hput.insert (legible_obj_iff.mpr legibleObject_nil) (.inl (by decide))
  · next hremove =>
    split
    · exact hput
    · next hpreserve =>
      refine hput.modify fun v hv => ?_
      rw [putCells, get?_insert, if_neg (by decide), get?_metadata] at hv
      obtain ⟨m, hm, rfl⟩ := Option.map_eq_some_iff.mp hv
      refine legible_obj_iff.mpr (legible_dropVersion (legible_of_metadata? h hm) fun v hv => ?_)
      refine hnb v (mem_filteredValues.mpr (.inr ⟨_, ?_, hv⟩))
      rw [metadata?_cleaned, if_neg hremove, if_neg hpreserve, hm]
      rfl

/-- The value of a cleaned notebook is legible exactly if nothing in it begins as a number. -/
theorem legible_cleaned_iff (h : Legible maxDepth nb.toJson) :
    Legible maxDepth (nb.cleaned c).toJson ↔ (nb.cleaned c).Unmistakable := by
  constructor
  · intro hcleaned
    exact unmistakable_of_legible (legible_obj_iff.mp hcleaned)
  · intro hnb
    exact legible_obj_iff.mpr (legible_cleaned (legible_obj_iff.mp h) hnb)

theorem beginsAsNumber_languageInfo_cleaned (c : Config)
    (h : ∀ m o, nb.metadata? = some m → get? m "language_info" = some (.obj o) → numberKey ∉ keys o)
    {m : Object} {v : Json} (hm : (nb.cleaned c).metadata? = some m)
    (hv : get? m "language_info" = some v) : v.beginsAsNumber = false := by
  rw [metadata?_cleaned] at hm
  split at hm
  · cases hm
    cases hv
  · split at hm
    · exact beginsAsNumber_of_notMem fun o ho => h m o hm (ho ▸ hv)
    · obtain ⟨before, hbefore, rfl⟩ := Option.map_eq_some_iff.mp hm
      rw [get?_modify, if_pos rfl] at hv
      obtain ⟨w, hw, rfl⟩ := Option.map_eq_some_iff.mp hv
      cases w with
      | obj info => exact beginsAsNumber_restrict (· != "version") (h before info hbefore hw)
      | _ => rfl

/-- Cleaning brings `numberKey` to the front only of an object that has this key. -/
theorem unmistakable_cleaned (h : ∀ o, .obj o ∈ nb.filteredValues → numberKey ∉ keys o)
    (c : Config) : (nb.cleaned c).Unmistakable := by
  intro v hv
  rcases mem_filteredValues.mp hv with ⟨cell, hcell, hget⟩ | ⟨m, hm, hget⟩
  · rw [cells_cleaned] at hcell
    obtain ⟨before, hbefore, rfl⟩ := List.mem_map.mp hcell
    refine Cell.beginsAsNumber_metadata_clean (fun o ho => h o ?_) hget
    exact mem_filteredValues.mpr (.inl ⟨before, mem_of_mem_keptCells hbefore, ho⟩)
  · refine beginsAsNumber_languageInfo_cleaned c (fun m o hm ho => h o ?_) hm hget
    exact mem_filteredValues.mpr (.inr ⟨m, hm, ho⟩)

/-- A notebook that was read and cleaned is read back from its text as the very same notebook
exactly if nothing in it begins as a number, as is the case where none of the objects has that key.
Nothing is found in the cleaned notebook, and cleaning it again writes the same text. -/
theorem written_clean_iff_unmistakable (hread : ofOctets? bs = .ok nb) (hc : c.Valid) :
    ∃ after, nb.clean c = .ok after ∧
      (ofText? after.text = .ok after ↔ after.Unmistakable) ∧
      ((∀ o, .obj o ∈ nb.filteredValues → numberKey ∉ keys o) → after.Unmistakable) ∧
      after.check c = .ok [] ∧ (after.clean c).map text = .ok after.text := by
  refine ⟨nb.cleaned c, clean_of_valid hc nb, ?_, fun h => unmistakable_cleaned h c, ?_, ?_⟩
  · rw [ofText?_text_iff]
    exact legible_cleaned_iff (legible_of_ofOctets? hread)
  · rw [check_of_valid hc, findings_cleaned]
  · rw [clean_of_valid hc, cleaned_cleaned]
    rfl

/-- A notebook in which cleaning leaves `numberKey` behind another key. -/
def guarded : Notebook where
  root := [("cells", .arr [.obj [("metadata", .obj [("tags", .null), (numberKey, .null)])]]),
    ("metadata", .obj [("language_info", .obj [("name", .str "julia"), ("version", .str "1"),
      (numberKey, .str "12")])])]
  shape := defect?_eq_none_iff.mp rfl

def guardedText : String :=
  "\x7b\"cells\":[\x7b\"metadata\":\x7b\"tags\":null," ++
    "\"$serde_json::private::Number\":null\x7d\x7d]," ++
    "\"metadata\":\x7b\"language_info\":\x7b\"name\":\"julia\",\"version\":\"1\"," ++
    "\"$serde_json::private::Number\":\"12\"\x7d\x7d\x7d"

set_option maxRecDepth 2000 in
theorem written_clean_iff_unmistakable_guarded :
    ofOctets? (Utf8.encode guardedText) = .ok guarded ∧
      Config.Valid { cellMetadata := .preserve (.ofList ["tags", numberKey]) } ∧
    ∃ after, guarded.clean { cellMetadata := .preserve (.ofList ["tags", numberKey]) } = .ok after ∧
      (ofText? after.text = .ok after ↔ after.Unmistakable) ∧
      ((∀ o, .obj o ∈ guarded.filteredValues → numberKey ∉ keys o) → after.Unmistakable) ∧
      after.check { cellMetadata := .preserve (.ofList ["tags", numberKey]) } = .ok [] ∧
      (after.clean { cellMetadata := .preserve (.ofList ["tags", numberKey]) }).map text =
        .ok after.text :=
  have hread : ofOctets? (Utf8.encode guardedText) = .ok guarded := rfl
  ⟨hread, by decide, written_clean_iff_unmistakable hread (by decide)⟩

/-- A notebook in which cleaning brings `numberKey` to the front. -/
def exposed : Notebook where
  root := [("cells", .arr []), ("metadata", .obj [("language_info",
    .obj [("version", .str "3.9"), (numberKey, .str "12")])])]
  shape := defect?_eq_none_iff.mp rfl

def exposedText : String :=
  "\x7b\"cells\":[],\"metadata\":\x7b\"language_info\":" ++
    "\x7b\"version\":\"3.9\",\"$serde_json::private::Number\":\"12\"\x7d\x7d\x7d"

/-- What is read in place of the cleaned notebook. -/
def misread : Notebook where
  root := [("cells", .arr []), ("metadata", .obj [("language_info", .num "12")])]
  shape := defect?_eq_none_iff.mp rfl

/-- The text of the cleaned notebook. -/
def misreadText : String :=
  "\x7b\n \"cells\": [],\n \"metadata\": \x7b\n  \"language_info\": \x7b\n" ++
    "   \"$serde_json::private::Number\": \"12\"\n  \x7d\n \x7d\n\x7d\n"

set_option maxRecDepth 2000 in
theorem cleaned_text_misread : ofText? exposedText = .ok exposed ∧
    ∃ after, exposed.clean {} = .ok after ∧ ofText? after.text = .ok misread ∧
      misread.same after = false := by
  have htext : (exposed.cleaned {}).text = misreadText := by decide +kernel
  have hmisread : ofText? misreadText = .ok misread := rfl
  refine ⟨rfl, exposed.cleaned {}, rfl, ?_, by decide +kernel⟩
  rw [htext, hmisread]

end Notebook

end NotebookCleaning
