import NotebookCleaning.Proofs.CleanedCell
import NotebookCleaning.Proofs.CleanedDocument
import NotebookCleaning.Proofs.CleanedKeys

/-!
# The checker misses nothing

Cleaning adds fields that have to be there, which is no finding. `Notebook.filled` makes these
additions and nothing else. A notebook has no findings exactly if cleaning makes of it what filling
makes of it. Both leave the same keys in the same order, so the comparison is field by field: each
check stays silent exactly where cleaning and filling agree on the field that it looks at.
-/

namespace NotebookCleaning

open Object

namespace Cell

variable (c : Config)

def filled (cell : Cell) : Cell :=
  let counted := if cell.isCode && !c.preserveCounts
    then supply "execution_count" (fun _ => false) .null cell else cell
  let listed := if cell.isCode && !c.preserveOutputs
    then supply "outputs" Json.isNull (.arr []) counted else counted
  if c.cellMetadata = .preserveAll then listed
  else supply "metadata" (fun v => v.kind ≠ .object) (.obj []) listed

/-- What filling makes of one field of a cell. -/
def filledField (code : Bool) (key : String) (v? : Option Json) : Option Json :=
  if key = "execution_count" then
    if code && !c.preserveCounts then some (supplied (fun _ => false) .null v?) else v?
  else if key = "outputs" then
    if code && !c.preserveOutputs then some (supplied Json.isNull (.arr []) v?) else v?
  else if key = "metadata" then
    if c.cellMetadata = .preserveAll then v?
    else some (supplied (fun v => v.kind ≠ .object) (.obj []) v?)
  else v?

theorem get?_filled (cell : Cell) (key : String) :
    get? (cell.filled c) key = filledField c cell.isCode key (get? cell key) := by
  simp only [filled, filledField, apply_ite (get? · key), get?_supply]
  cases key using field_cases with
  | executionCount => simp
  | outputs => simp
  | metadata => simp
  | other key hcount houtputs hmetadata => simp [hcount, houtputs, hmetadata]

theorem keys_filled (cell : Cell) :
    keys (cell.filled c) = cleanKeys c cell.isCode (keys cell) := by
  simp only [filled, cleanKeys, apply_ite keys, keys_supply]

variable {c}

/-- Whether cleaning and filling agree on a field of a cell. -/
def Agree (c : Config) (cell : Cell) (key : String) : Prop :=
  cleanField c cell.isCode key (get? cell key) = filledField c cell.isCode key (get? cell key)

theorem clean_eq_filled_iff {cell : Cell} (h : (keys cell).Nodup) :
    cell.clean c = cell.filled c ↔
      Agree c cell "execution_count" ∧ Agree c cell "outputs" ∧ Agree c cell "metadata" := by
  constructor
  · intro heq
    have hagree (key : String) : Agree c cell key := by
      rw [Agree, ← get?_clean, ← get?_filled, heq]
    exact ⟨hagree _, hagree _, hagree _⟩
  · rintro ⟨hcount, houtputs, hmetadata⟩
    apply ext_of_keys
    · rw [keys_clean]
      exact nodup_cleanKeys h
    · rw [keys_clean, keys_filled]
    · intro key
      rw [get?_clean, get?_filled]
      cases key using field_cases with
      | executionCount => exact hcount
      | outputs => exact houtputs
      | metadata => exact hmetadata
      | other key hc ho hm =>
        simp only [cleanField, filledField, if_neg hc, if_neg ho, if_neg hm]

theorem agree_executionCount_iff {cell : Cell} : Agree c cell "execution_count" ↔
    (cell.isCode && !c.preserveCounts && cell.executionCount?.isSome) = false := by
  simp only [Agree, cleanField, filledField, if_true, executionCount?]
  cases cell.isCode && !c.preserveCounts with
  | false => simp
  | true =>
    cases get? cell "execution_count" with
    | none => simp [supplied]
    | some v => cases v <;> simp [supplied, Json.isNull, Json.kind]

theorem clearCount_eq_self_iff {v : Json} (h : v.distinctKeys) :
    Json.clearCount v = v ↔ isCountedOutput v = false := by
  cases v with
  | obj o =>
    have hkeys := Json.nodup_keys_of_distinctKeys h
    rw [Json.clearCount, Json.onObject, Json.obj.injEq, modify_eq_self_iff hkeys]
    simp only [isCountedOutput, executionCount?]
    cases get? o "execution_count" with
    | none => simp
    | some w => cases w <;> simp [Json.isNull, Json.kind]
  | _ => simp [Json.clearCount, Json.onObject, isCountedOutput]

theorem map_clearCount_eq_self_iff {items : List Json} (h : ∀ v ∈ items, v.distinctKeys) :
    items.map Json.clearCount = items ↔ items.countP isCountedOutput = 0 := by
  rw [List.countP_eq_zero, ← List.map_id items, List.map_map, List.map_inj_left, List.map_id]
  refine forall₂_congr fun v hv => ?_
  rw [Bool.not_eq_true]
  exact clearCount_eq_self_iff (h v hv)

theorem agree_outputs_iff {cell : Cell} (h : (Json.obj cell).distinctKeys) :
    Agree c cell "outputs" ↔ (cell.isCode = true →
      if c.preserveOutputs then c.preserveCounts ∨ cell.countedOutputs = 0
      else cell.hasOutputs = false) := by
  simp only [Agree, cleanField, filledField, if_true, String.reduceEq, if_false]
  cases cell.isCode with
  | false => simp
  | true =>
    cases c.preserveOutputs with
    | false =>
      simp only [hasOutputs]
      cases get? cell "outputs" with
      | none => simp [supplied]
      | some v =>
        cases v with
        | arr items => cases items <;> simp [supplied, Json.isNull, Json.kind]
        | _ => simp [supplied, Json.isNull, Json.kind]
    | true =>
      cases c.preserveCounts with
      | true => simp
      | false =>
        simp only [countedOutputs]
        cases hget : get? cell "outputs" with
        | none => simp
        | some v =>
          cases v with
          | arr items =>
            have hitems := Json.distinctKeys_arr_iff.mp (Json.distinctKeys_of_get? h hget)
            simp [Json.clearCounts, Json.onArray, map_clearCount_eq_self_iff hitems]
          | _ => simp [Json.clearCounts, Json.onArray]

theorem agree_metadata_iff {cell : Cell} : Agree c cell "metadata" ↔
    metadataFindings c.cellMetadata cell = [] := by
  simp only [Agree, cleanField, filledField, if_true, String.reduceEq, if_false, metadataFindings,
    metadata?]
  cases c.cellMetadata with
  | preserveAll =>
    simp only [MetadataPolicy.keeps, Bool.not_true, List.filter_false, List.map_nil, if_true,
      true_iff]
    split <;> rfl
  | strip =>
    cases get? cell "metadata" with
    | none => simp [supplied]
    | some v =>
      cases v <;> simp [supplied, Json.kind, Json.object?, MetadataPolicy.keeps, keys_eq_nil_iff]
  | preserve fields =>
    cases get? cell "metadata" with
    | none => simp [supplied, keptMetadata]
    | some v =>
      cases v <;> simp [supplied, Json.kind, Json.object?, MetadataPolicy.keeps, keptMetadata,
        restrict_eq_self_iff]

theorem codeFindings_eq_nil_iff {cell : Cell} : codeFindings c cell = [] ↔
    (c.preserveCounts ∨ cell.executionCount? = none) ∧
      if c.preserveOutputs then c.preserveCounts ∨ cell.countedOutputs = 0
      else cell.hasOutputs = false := by
  simp only [codeFindings]
  cases c.preserveCounts <;> cases c.preserveOutputs <;> simp

/-- A cell has no findings exactly if it is kept and cleaning only fills it. -/
theorem findings_eq_nil_iff {cell : Cell} (h : (Json.obj cell).distinctKeys) :
    cell.findings c = [] ↔
      (c.removeEmptyCells && cell.isBlank) = false ∧ cell.clean c = cell.filled c := by
  rw [clean_eq_filled_iff (Json.nodup_keys_of_distinctKeys h), agree_executionCount_iff,
    agree_outputs_iff h, agree_metadata_iff]
  simp only [findings, List.append_eq_nil_iff]
  cases hcode : cell.isCode with
  | false => simp
  | true =>
    simp only [if_true, codeFindings_eq_nil_iff]
    cases c.preserveCounts <;> simp [and_assoc]

end Cell

namespace Notebook

variable (c : Config) (nb : Notebook)

def filledRoot : Object :=
  let root := modify "cells" (fun _ => .arr ((nb.cells.map (Cell.filled c)).map .obj)) nb.root
  if c.removeNotebookMetadata then supply "metadata" (fun _ => false) (.obj []) root else root

/-- What filling makes of the metadata of a document. -/
def filledDocumentField (v? : Option Json) : Option Json :=
  if c.removeNotebookMetadata then some (supplied (fun _ => false) (.obj []) v?) else v?

theorem get?_filledRoot (key : String) : get? (filledRoot c nb) key =
    if key = "cells" then some (.arr ((nb.cells.map (Cell.filled c)).map .obj))
    else if key = "metadata" then filledDocumentField c (get? nb.root key)
    else get? nb.root key := by
  unfold filledRoot filledDocumentField
  by_cases hcells : key = "cells"
  · subst hcells
    split <;> simp [get?_supply, get?_modify, nb.get?_cells]
  · split <;> simp [get?_supply, get?_modify, hcells]

theorem keys_filledRoot : keys (filledRoot c nb) =
    if c.removeNotebookMetadata then withKey "metadata" (keys nb.root) else keys nb.root := by
  unfold filledRoot
  split <;> simp [keys_supply]

theorem shape_filledRoot : Shape (filledRoot c nb) where
  cells := ⟨nb.cells.map (Cell.filled c), by rw [get?_filledRoot, if_pos rfl]⟩
  metadata v hv := by
    rw [get?_filledRoot, if_neg (by decide), if_pos rfl, filledDocumentField] at hv
    split at hv
    · cases hget : get? nb.root "metadata" with
      | none =>
        rw [hget] at hv
        exact ⟨[], (Option.some.inj hv).symm⟩
      | some w =>
        rw [hget] at hv
        obtain ⟨m, hm⟩ := nb.shape.metadata w hget
        exact ⟨m, (Option.some.inj hv).symm.trans hm⟩
    · exact nb.shape.metadata v hv

/-- A notebook with the fields added that cleaning sees to, and otherwise as it is. -/
def filled : Notebook := ⟨filledRoot c nb, shape_filledRoot c nb⟩

variable {c nb}

theorem dropVersion_eq_self_iff {m : Object} (h : (Json.obj m).distinctKeys) :
    Json.dropVersion (.obj m) = .obj m ↔
      ((get? m "language_info").bind Json.object?).bind (get? · "version") = none := by
  rw [Json.dropVersion, Json.onObject, Json.obj.injEq,
    modify_eq_self_iff (Json.nodup_keys_of_distinctKeys h)]
  cases get? m "language_info" with
  | none => simp
  | some v => cases v <;> simp [Json.onObject, Json.object?, erase_eq_self_iff]

theorem languageVersion?_eq_none_iff (h : nb.DistinctKeys) : nb.languageVersion? = none ↔
    (get? nb.root "metadata").map Json.dropVersion = get? nb.root "metadata" := by
  have hget := nb.get?_metadata
  rw [languageVersion?]
  cases hm : nb.metadata? with
  | none => simp [hget, hm]
  | some m =>
    rw [hm] at hget
    have hversion := dropVersion_eq_self_iff (h.metadata hget)
    rw [hget, Option.map_some, Option.map_some, Option.some.injEq, hversion]
    rfl

theorem documentFindings_eq_nil_iff (h : nb.DistinctKeys) : documentFindings c nb = [] ↔
    cleanDocumentField c (get? nb.root "metadata") =
      filledDocumentField c (get? nb.root "metadata") := by
  simp only [documentFindings, cleanDocumentField, filledDocumentField]
  cases c.removeNotebookMetadata with
  | true =>
    rw [get?_metadata]
    cases nb.metadata? <;> simp [supplied]
  | false =>
    cases c.preserveNotebookMetadata with
    | true => simp
    | false => simpa using languageVersion?_eq_none_iff h

theorem findings_eq_nil_iff : nb.findings c = [] ↔
    (∀ cell ∈ nb.cells, cell.findings c = []) ∧ documentFindings c nb = [] := by
  rw [findings, List.append_eq_nil_iff, List.flatMap_eq_nil_iff]
  refine and_congr_left fun _ => ?_
  constructor
  · intro h cell hcell
    rw [← List.zipIdx_map_fst 0 nb.cells] at hcell
    obtain ⟨p, hp, rfl⟩ := List.mem_map.mp hcell
    exact List.map_eq_nil_iff.mp (h p hp)
  · intro h p hp
    rw [h p.1 (List.fst_mem_of_mem_zipIdx hp), List.map_nil]

theorem cleanCells_eq_map_iff {cells : List Cell} {f : Cell → Cell} :
    cleanCells c cells = cells.map f ↔
      ∀ cell ∈ cells, (c.removeEmptyCells && cell.isBlank) = false ∧ cell.clean c = f cell := by
  constructor
  · intro h
    have hkept : keptCells c cells = cells :=
      keptCells_eq_self_of_length (by rw [h, List.length_map])
    rw [cleanCells_eq, hkept, List.map_inj_left] at h
    exact fun cell hcell => ⟨keptCells_eq_self_iff.mp hkept cell hcell, h cell hcell⟩
  · intro h
    have hkept : keptCells c cells = cells :=
      keptCells_eq_self_iff.mpr fun cell hcell => (h cell hcell).1
    rw [cleanCells_eq, hkept, List.map_inj_left]
    exact fun cell hcell => (h cell hcell).2

theorem cleaned_eq_filled_iff (h : nb.DistinctKeys) : nb.cleaned c = nb.filled c ↔
    cleanCells c nb.cells = nb.cells.map (Cell.filled c) ∧
      cleanDocumentField c (get? nb.root "metadata") =
        filledDocumentField c (get? nb.root "metadata") := by
  constructor
  · intro heq
    have hroot : (nb.cleaned c).root = filledRoot c nb := congrArg Notebook.root heq
    constructor
    · rw [← cells_cleaned, heq]
      exact cells_of_get? (by rw [filled, get?_filledRoot, if_pos rfl])
    · rw [← get?_metadata_cleaned, hroot, get?_filledRoot, if_neg (by decide), if_pos rfl]
  · rintro ⟨hcells, hmetadata⟩
    apply ext_of_root
    change (nb.cleaned c).root = filledRoot c nb
    apply ext_of_keys (h.cleaned c).root
    · rw [keys_cleaned, keys_filledRoot]
    · intro key
      rw [get?_cleaned, get?_filledRoot, hcells]
      by_cases hkey : key = "metadata"
      · subst hkey
        rw [hmetadata]
      · rw [if_neg hkey, if_neg hkey]

theorem findings_eq_nil_iff_cleaned_eq_filled (h : nb.DistinctKeys) :
    nb.findings c = [] ↔ nb.cleaned c = nb.filled c := by
  rw [findings_eq_nil_iff, cleaned_eq_filled_iff h, documentFindings_eq_nil_iff h,
    cleanCells_eq_map_iff]
  refine and_congr_left fun _ => forall₂_congr fun cell hcell => ?_
  exact Cell.findings_eq_nil_iff (h.cells cell hcell)

/-- A check succeeds without findings exactly if cleaning succeeds and only fills the notebook. -/
theorem check_eq_nil_iff_clean_eq_filled (h : nb.DistinctKeys) :
    nb.check c = .ok [] ↔ nb.clean c = .ok (nb.filled c) := by
  rw [check_eq_ok_iff, clean_eq_ok_iff]
  exact and_congr_right fun _ => findings_eq_nil_iff_cleaned_eq_filled h

/-- A notebook that lacks all fields that cleaning adds, next to fields of unexpected types. -/
def bare : Notebook where
  root := [("cells", .arr [.obj [("cell_type", .str "code"), ("source", .str "x")],
    .obj [("outputs", .null), ("metadata", .num "0"), ("cell_type", .str "code")]])]
  shape := defect?_eq_none_iff.mp rfl

theorem check_eq_nil_iff_clean_eq_filled_bare : bare.DistinctKeys ∧
    bare.clean { removeNotebookMetadata := true } =
      .ok (bare.filled { removeNotebookMetadata := true }) :=
  ⟨by decide, (check_eq_nil_iff_clean_eq_filled (by decide)).mp rfl⟩

end Notebook

end NotebookCleaning
