import NotebookCleaning.Clean
import NotebookCleaning.Proofs.Object

/-!
# A cleaned cell, field by field

Cleaning a cell acts on each field by itself: what stands under a key afterwards depends only on
what stood there before, on the type of the cell and on the configuration (`get?_clean`). Its keys
are the old ones with those that have to be there and were missing behind them (`keys_clean`). The
accessors of cells are read off from these two.
-/

namespace NotebookCleaning

namespace Json

/-- A value among the outputs without its count. -/
def clearCount : Json → Json := onObject (Object.modify "execution_count" fun _ => .null)

/-- The value under `outputs` without the counts of its items. -/
def clearCounts : Json → Json := onArray (List.map clearCount)

theorem isCountedOutput_clearCount (v : Json) : Cell.isCountedOutput (clearCount v) = false := by
  cases v with
  | obj o =>
    simp only [clearCount, onObject, Cell.isCountedOutput, Cell.executionCount?, Object.get?_modify,
      if_pos]
    cases Object.get? o "execution_count" <;> simp [isNull, kind]
  | _ => rfl

end Json

namespace Cell

open Object

variable (c : Config) (cell : Cell)

/-- The metadata of a cell under a policy that keeps only some fields. -/
def keptMetadata (fields : FieldSet) (v? : Option Json) : Json :=
  .obj (restrict fields.contains ((v?.bind Json.object?).getD []))

/-- A case split on the fields of a cell that cleaning looks at. -/
@[elab_as_elim]
theorem field_cases {motive : String → Prop} (executionCount : motive "execution_count")
    (outputs : motive "outputs") (metadata : motive "metadata")
    (other : ∀ key, key ≠ "execution_count" → key ≠ "outputs" → key ≠ "metadata" → motive key)
    (key : String) : motive key := by
  by_cases hcount : key = "execution_count"
  · rwa [hcount]
  by_cases houtputs : key = "outputs"
  · rwa [houtputs]
  by_cases hmetadata : key = "metadata"
  · rwa [hmetadata]
  · exact other key hcount houtputs hmetadata

/-- What cleaning makes of one field of a cell, `code` saying whether it is a code cell. -/
def cleanField (code : Bool) (key : String) (v? : Option Json) : Option Json :=
  if key = "execution_count" then if code && !c.preserveCounts then some .null else v?
  else if key = "outputs" then
    if code && !c.preserveOutputs then some (.arr [])
    else if code && !c.preserveCounts then v?.map Json.clearCounts
    else v?
  else if key = "metadata" then
    match c.cellMetadata with
    | .preserveAll => v?
    | .strip => some (.obj [])
    | .preserve fields => some (keptMetadata fields v?)
  else v?

section
variable (code : Bool) (v? : Option Json)

theorem cleanField_executionCount : cleanField c code "execution_count" v? =
    if code && !c.preserveCounts then some .null else v? := rfl

theorem cleanField_outputs : cleanField c code "outputs" v? =
    if code && !c.preserveOutputs then some (.arr [])
    else if code && !c.preserveCounts then v?.map Json.clearCounts
    else v? := rfl

theorem cleanField_metadata : cleanField c code "metadata" v? =
    match c.cellMetadata with
    | .preserveAll => v?
    | .strip => some (.obj [])
    | .preserve fields => some (keptMetadata fields v?) := rfl

theorem cleanField_of_ne {key : String} (hcount : key ≠ "execution_count")
    (houtputs : key ≠ "outputs") (hmetadata : key ≠ "metadata") :
    cleanField c code key v? = v? := by
  rw [cleanField, if_neg hcount, if_neg houtputs, if_neg hmetadata]

end

theorem get?_cleanCode (key : String) : get? (cleanCode c cell) key =
    if key = "execution_count" then if !c.preserveCounts then some .null else get? cell key
    else if key = "outputs" then
      if !c.preserveOutputs then some (.arr [])
      else if !c.preserveCounts then (get? cell key).map Json.clearCounts
      else get? cell key
    else get? cell key := by
  have hclear (o : Object) : clearOutputCounts o = modify "outputs" Json.clearCounts o := rfl
  by_cases hcount : key = "execution_count"
  all_goals
    cases hc : c.preserveCounts <;> cases ho : c.preserveOutputs <;>
      simp [cleanCode, hclear, get?_insert, get?_modify, hc, ho, hcount]

theorem get?_cleanMetadata (p : MetadataPolicy) (key : String) : get? (cleanMetadata p cell) key =
    if key = "metadata" then
      match p with
      | .preserveAll => get? cell key
      | .strip => some (.obj [])
      | .preserve fields => some (keptMetadata fields (get? cell key))
    else get? cell key := by
  by_cases hkey : key = "metadata"
  · subst hkey
    cases p <;> simp [cleanMetadata, get?_insert, keptMetadata, metadata?]
  · cases p <;> simp [cleanMetadata, get?_insert, hkey]

theorem get?_clean (key : String) :
    get? (cell.clean c) key = cleanField c cell.isCode key (get? cell key) := by
  rw [clean, get?_cleanMetadata]
  unfold cleanField
  cases cell.isCode with
  | false =>
    by_cases hm : key = "metadata"
    · subst hm; simp
    · simp [hm]
  | true =>
    by_cases hm : key = "metadata"
    · subst hm; simp [get?_cleanCode]
    · simp [hm, get?_cleanCode]

/-- The keys that cleaning sees to it that a cell has, in the order in which it adds them. -/
def cleanKeys (code : Bool) (ks : List String) : List String :=
  let ks := if code && !c.preserveCounts then withKey "execution_count" ks else ks
  let ks := if code && !c.preserveOutputs then withKey "outputs" ks else ks
  if c.cellMetadata = .preserveAll then ks else withKey "metadata" ks

theorem keys_clean : keys (cell.clean c) = cleanKeys c cell.isCode (keys cell) := by
  have hmeta (o : Cell) : keys (cleanMetadata c.cellMetadata o) =
      if c.cellMetadata = .preserveAll then keys o else withKey "metadata" (keys o) := by
    cases c.cellMetadata <;> simp [cleanMetadata, keys_insert]
  rw [clean, hmeta]
  cases cell.isCode <;> cases hc : c.preserveCounts <;> cases ho : c.preserveOutputs <;>
    simp [cleanKeys, cleanCode, clearOutputCounts, keys_insert, hc, ho]

variable {c cell}

theorem nodup_cleanKeys {code : Bool} {ks : List String} (h : ks.Nodup) :
    (cleanKeys c code ks).Nodup := by
  have hwith (b : Prop) [Decidable b] (k : String) {ks : List String} (h : ks.Nodup) :
      (if b then withKey k ks else ks).Nodup := by
    split
    · exact nodup_withKey h
    · exact h
  simp only [cleanKeys]
  split
  · exact hwith _ _ (hwith _ _ h)
  · exact nodup_withKey (hwith _ _ (hwith _ _ h))

variable (c cell)

@[simp] theorem isCode_clean : (cell.clean c).isCode = cell.isCode := by
  have h := get?_clean c cell "cell_type"
  rw [cleanField_of_ne c _ _ (by decide) (by decide) (by decide)] at h
  rw [isCode, cellType, h]
  rfl

@[simp] theorem isBlank_clean : (cell.clean c).isBlank = cell.isBlank := by
  have h := get?_clean c cell "source"
  rw [cleanField_of_ne c _ _ (by decide) (by decide) (by decide)] at h
  simp only [isBlank, source, h]

theorem executionCount?_clean : (cell.clean c).executionCount? =
    if cell.isCode && !c.preserveCounts then none else cell.executionCount? := by
  simp only [executionCount?, get?_clean, cleanField_executionCount]
  split <;> rfl

theorem hasOutputs_clean : (cell.clean c).hasOutputs =
    if cell.isCode && !c.preserveOutputs then false else cell.hasOutputs := by
  simp only [hasOutputs, get?_clean, cleanField_outputs]
  by_cases ho : cell.isCode && !c.preserveOutputs
  · simp only [if_pos ho, List.isEmpty_nil, Bool.not_true]
  · simp only [if_neg ho]
    by_cases hc : cell.isCode && !c.preserveCounts
    · rw [if_pos hc]
      cases get? cell "outputs" with
      | none => rfl
      | some v => cases v <;> simp [Json.clearCounts, Json.onArray]
    · rw [if_neg hc]

theorem countedOutputs_clean : (cell.clean c).countedOutputs =
    if cell.isCode && !(c.preserveOutputs && c.preserveCounts) then 0
    else cell.countedOutputs := by
  have hclear (items : List Json) : (items.map Json.clearCount).countP isCountedOutput = 0 := by
    rw [List.countP_map, List.countP_eq_zero]
    intro v _
    simp [Json.isCountedOutput_clearCount]
  simp only [countedOutputs, get?_clean, cleanField_outputs]
  cases cell.isCode with
  | false => rfl
  | true =>
    cases c.preserveOutputs with
    | false => simp
    | true =>
      cases c.preserveCounts with
      | true => rfl
      | false =>
        cases get? cell "outputs" with
        | none => simp
        | some v => cases v <;> simp [Json.clearCounts, Json.onArray, hclear]

theorem metadata?_clean : (cell.clean c).metadata? =
    match c.cellMetadata with
    | .preserveAll => cell.metadata?
    | .strip => some []
    | .preserve fields => some (restrict fields.contains (cell.metadata?.getD [])) := by
  simp only [metadata?, get?_clean, cleanField_metadata]
  cases c.cellMetadata <;> rfl

end Cell

end NotebookCleaning
