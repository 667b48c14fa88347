import NotebookCleaning.Proofs.CleanedCell
import NotebookCleaning.Proofs.CleanedDocument
import NotebookCleaning.Proofs.CleanedKeys
import NotebookCleaning.Proofs.Same

/-!
# What cleaning forgets

The durable part of a notebook is what a configuration lets through: volatile fields are left out
and not reset. Two notebooks are the same after cleaning exactly if their durable parts are the
same, so no volatile value shows in a cleaned notebook and nothing else is lost.
-/

namespace NotebookCleaning

open Object

namespace Cell

variable (c : Config)

def durableCode (cell : Cell) : Cell :=
  let cell := if c.preserveCounts then cell else erase "execution_count" cell
  if !c.preserveOutputs then erase "outputs" cell
  else if !c.preserveCounts then modify "outputs" Json.clearCounts cell
  else cell

def durableMetadata (p : MetadataPolicy) (cell : Cell) : Cell :=
  match p with
  | .preserveAll => cell
  | .strip => erase "metadata" cell
  | .preserve fields => insert "metadata" (keptMetadata fields (get? cell "metadata")) cell

def durable (cell : Cell) : Cell :=
  durableMetadata c.cellMetadata (if cell.isCode then durableCode c cell else cell)

/-- What is durable in one field of a cell. -/
def durableField (code : Bool) (key : String) (v? : Option Json) : Option Json :=
  if key = "execution_count" then if code && !c.preserveCounts then none else v?
  else if key = "outputs" then
    if code && !c.preserveOutputs then none
    else if code && !c.preserveCounts then v?.map Json.clearCounts
    else v?
  else if key = "metadata" then
    match c.cellMetadata with
    | .preserveAll => v?
    | .strip => none
    | .preserve fields => some (keptMetadata fields v?)
  else v?

theorem get?_durableCode (cell : Cell) (key : String) : get? (durableCode c cell) key =
    if key = "execution_count" then if !c.preserveCounts then none else get? cell key
    else if key = "outputs" then
      if !c.preserveOutputs then none
      else if !c.preserveCounts then (get? cell key).map Json.clearCounts
      else get? cell key
    else get? cell key := by
  by_cases hcount : key = "execution_count"
  all_goals
    cases hc : c.preserveCounts <;> cases ho : c.preserveOutputs <;>
      simp [durableCode, get?_erase, get?_modify, hc, ho, hcount]

theorem get?_durable (cell : Cell) (key : String) :
    get? (cell.durable c) key = durableField c cell.isCode key (get? cell key) := by
  have hmetadata (o : Cell) : get? (durableMetadata c.cellMetadata o) key =
      if key = "metadata" then durableField c cell.isCode key (get? o key) else get? o key := by
    by_cases hkey : key = "metadata"
    · subst hkey
      cases hp : c.cellMetadata <;>
        simp [durableMetadata, durableField, get?_insert, get?_erase, hp]
    · cases c.cellMetadata <;> simp [durableMetadata, get?_insert, get?_erase, hkey]
  rw [durable, hmetadata]
  by_cases hm : key = "metadata"
  · subst hm
    cases cell.isCode <;> simp [get?_durableCode]
  · cases cell.isCode <;> simp [get?_durableCode, durableField, hm]

variable {c}

theorem nodup_keys_durable {cell : Cell} (h : (keys cell).Nodup) :
    (keys (cell.durable c)).Nodup := by
  have hcode : (keys (durableCode c cell)).Nodup := by
    cases hc : c.preserveCounts <;> cases ho : c.preserveOutputs <;>
      simp [durableCode, nodup_keys_erase, h, hc, ho]
  have hbase : (keys (if cell.isCode then durableCode c cell else cell)).Nodup := by
    split
    · exact hcode
    · exact h
  unfold durable
  cases c.cellMetadata with
  | preserveAll => exact hbase
  | strip => exact nodup_keys_erase hbase
  | preserve fields => exact nodup_keys_insert hbase

/-- Field by field, either cleaning and forgetting do the same or cleaning leaves a constant where
forgetting leaves nothing. -/
theorem same_cleanField_iff {code : Bool} {key : String} {v? w? : Option Json} :
    Json.SameField (cleanField c code key v?) (cleanField c code key w?) ↔
      Json.SameField (durableField c code key v?) (durableField c code key w?) := by
  have hconst (v : Json) (h : v.same v = true) :
      Json.SameField (some v) (some v) ↔ Json.SameField none none := by
    simp [Json.SameField, h]
  cases key using field_cases with
  | executionCount =>
    simp only [cleanField, durableField, if_true]
    split
    · exact hconst .null rfl
    · rfl
  | outputs =>
    simp only [cleanField, durableField, if_true, String.reduceEq, if_false]
    split
    · exact hconst (.arr []) rfl
    · rfl
  | metadata =>
    simp only [cleanField, durableField, if_true, String.reduceEq, if_false]
    cases c.cellMetadata with
    | strip => exact hconst (.obj []) rfl
    | preserveAll => rfl
    | preserve fields => rfl
  | other key hcount houtputs hmetadata =>
    simp only [cleanField, durableField, if_neg hcount, if_neg houtputs, if_neg hmetadata]

theorem same_clean_iff {a b : Cell} (ha : (keys a).Nodup) (hb : (keys b).Nodup) :
    (Json.obj (a.clean c)).same (.obj (b.clean c)) ↔
      (Json.obj (a.durable c)).same (.obj (b.durable c)) := by
  have hclean (cell : Cell) (h : (keys cell).Nodup) : (keys (cell.clean c)).Nodup := by
    rw [keys_clean]
    exact nodup_cleanKeys h
  rw [Json.same_obj_iff (hclean a ha) (hclean b hb),
    Json.same_obj_iff (nodup_keys_durable ha) (nodup_keys_durable hb)]
  simp only [get?_clean, get?_durable]
  -- Neither side touches the type, so each of them makes the two cells agree on being code.
  constructor
  · intro h key
    have hcode : a.isCode = b.isCode := isCode_eq_of_same (h "cell_type")
    have hkey := h key
    rw [hcode] at hkey ⊢
    exact same_cleanField_iff.mp hkey
  · intro h key
    have hcode : a.isCode = b.isCode := isCode_eq_of_same (h "cell_type")
    have hkey := h key
    rw [hcode] at hkey ⊢
    exact same_cleanField_iff.mpr hkey

end Cell

namespace Notebook

variable (c : Config) (nb : Notebook)

def durableCells (cells : List Cell) : List Cell := (keptCells c cells).map (Cell.durable c)

def durableDocument (root : Object) : Object :=
  if c.removeNotebookMetadata then erase "metadata" root
  else if c.preserveNotebookMetadata then root
  else modify "metadata" Json.dropVersion root

def durableRoot : Object :=
  durableDocument c (modify "cells" (fun _ => .arr ((durableCells c nb.cells).map .obj)) nb.root)

/-- What is durable in the metadata of a document. -/
def durableDocumentField (v? : Option Json) : Option Json :=
  if c.removeNotebookMetadata then none
  else if c.preserveNotebookMetadata then v?
  else v?.map Json.dropVersion

theorem get?_durableRoot (key : String) : get? (durableRoot c nb) key =
    if key = "cells" then some (.arr ((durableCells c nb.cells).map .obj))
    else if key = "metadata" then durableDocumentField c (get? nb.root key)
    else get? nb.root key := by
  have hdocument (root : Object) : get? (durableDocument c root) key =
      if key = "metadata" then durableDocumentField c (get? root key) else get? root key := by
    unfold durableDocument durableDocumentField
    cases c.removeNotebookMetadata with
    | true => simp [get?_erase]
    | false => cases c.preserveNotebookMetadata <;> simp [get?_modify]
  rw [durableRoot, hdocument, get?_modify]
  by_cases hcells : key = "cells"
  · subst hcells
    simp [nb.get?_cells]
  · simp [hcells]

theorem shape_durableRoot : Shape (durableRoot c nb) where
  cells := ⟨durableCells c nb.cells, by rw [get?_durableRoot, if_pos rfl]⟩
  metadata v hv := by
    rw [get?_durableRoot, if_neg (by decide), if_pos rfl, durableDocumentField] at hv
    split at hv
    · cases hv
    · split at hv
      · exact nb.shape.metadata v hv
      · obtain ⟨w, hw, rfl⟩ := Option.map_eq_some_iff.mp hv
        obtain ⟨m, rfl⟩ := nb.shape.metadata w hw
        exact ⟨_, rfl⟩

/-- A notebook without the volatile state that a configuration does not keep. -/
def durable : Notebook := ⟨durableRoot c nb, shape_durableRoot c nb⟩

variable {c nb}

theorem nodup_keys_durableRoot (h : (keys nb.root).Nodup) : (keys (durableRoot c nb)).Nodup := by
  have hcells : (keys (modify "cells" (fun _ => .arr ((durableCells c nb.cells).map .obj))
      nb.root)).Nodup := by rwa [keys_modify]
  unfold durableRoot durableDocument
  split
  · exact nodup_keys_erase hcells
  · split
    · exact hcells
    · rwa [keys_modify]

theorem same_cleanDocumentField_iff {v? w? : Option Json} :
    Json.SameField (cleanDocumentField c v?) (cleanDocumentField c w?) ↔
      Json.SameField (durableDocumentField c v?) (durableDocumentField c w?) := by
  unfold cleanDocumentField durableDocumentField
  split
  · simp [Json.SameField, Json.same, Json.sameEntries]
  · rfl

/-- The cells that are kept do not depend on what is done to them. -/
theorem same_cells_iff {xs ys : List Cell} (hxs : ∀ cell ∈ xs, (keys cell).Nodup)
    (hys : ∀ cell ∈ ys, (keys cell).Nodup) :
    (Json.arr ((cleanCells c xs).map .obj)).same (.arr ((cleanCells c ys).map .obj)) ↔
      (Json.arr ((durableCells c xs).map .obj)).same (.arr ((durableCells c ys).map .obj)) := by
  rw [cleanCells_eq, cleanCells_eq, durableCells, durableCells]
  simp only [List.map_map]
  apply Json.same_arr_map_congr
  intro a ha b hb
  exact Cell.same_clean_iff (hxs a (mem_of_mem_keptCells ha)) (hys b (mem_of_mem_keptCells hb))

theorem same_cleaned_iff {a b : Notebook} (ha : a.DistinctKeys) (hb : b.DistinctKeys) :
    (a.cleaned c).same (b.cleaned c) ↔ (a.durable c).same (b.durable c) := by
  have hroots :
      (∀ key, Json.SameField (get? (a.cleaned c).root key) (get? (b.cleaned c).root key)) ↔
        ∀ key, Json.SameField (get? (durableRoot c a) key) (get? (durableRoot c b) key) := by
    refine forall_congr' fun key => ?_
    rw [get?_cleaned, get?_cleaned, get?_durableRoot, get?_durableRoot]
    split
    · simp only [Json.SameField, Option.rel_some_some]
      exact same_cells_iff
        (fun cell h => Json.nodup_keys_of_distinctKeys (ha.cells cell h))
        (fun cell h => Json.nodup_keys_of_distinctKeys (hb.cells cell h))
    · split
      · exact same_cleanDocumentField_iff
      · rfl
  unfold same toJson
  rw [Json.same_obj_iff (ha.cleaned c).root (hb.cleaned c).root, hroots]
  exact (Json.same_obj_iff (nodup_keys_durableRoot ha.root) (nodup_keys_durableRoot hb.root)).symm

/-- After cleaning under a valid configuration two notebooks are the same, up to the order of
entries, exactly if their durable parts are. -/
theorem clean_same_iff_durable_same (hc : c.Valid) {a b : Notebook} (ha : a.DistinctKeys)
    (hb : b.DistinctKeys) :
    ∃ a' b', a.clean c = .ok a' ∧ b.clean c = .ok b' ∧
      (a'.same b' ↔ (a.durable c).same (b.durable c)) :=
  ⟨a.cleaned c, b.cleaned c, clean_of_valid hc a, clean_of_valid hc b, same_cleaned_iff ha hb⟩

/-- A notebook that differs from others of its kind only in a count and in a version. -/
def stamped (count version : String) : Notebook where
  root := [("cells", .arr [.obj [("cell_type", .str "code"), ("execution_count", .num count)]]),
    ("metadata", .obj [("language_info", .obj [("version", .str version), ("name", .null)])])]
  shape := defect?_eq_none_iff.mp rfl

theorem clean_same_iff_durable_same_stamped : Config.Valid {} ∧
    (stamped "1" "3.9").DistinctKeys ∧ (stamped "2" "3.10").DistinctKeys ∧
    ∃ a' b', (stamped "1" "3.9").clean {} = .ok a' ∧ (stamped "2" "3.10").clean {} = .ok b' ∧
      a'.same b' := by
  refine ⟨by decide, by decide, by decide, ?_⟩
  obtain ⟨a', b', ha, hb, hiff⟩ := clean_same_iff_durable_same (c := {}) (by decide)
    (a := stamped "1" "3.9") (b := stamped "2" "3.10") (by decide) (by decide)
  exact ⟨a', b', ha, hb, hiff.mpr (by decide)⟩

end Notebook

end NotebookCleaning
