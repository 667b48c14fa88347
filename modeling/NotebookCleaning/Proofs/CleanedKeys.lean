import NotebookCleaning.Proofs.CleanedCell
import NotebookCleaning.Proofs.CleanedDocument
import NotebookCleaning.Proofs.DistinctKeys

/-!
# Keys of what is cleaned

Cleaning replaces values under keys, adds missing keys and takes keys away, none of which makes a
key occur twice.
-/

namespace NotebookCleaning

namespace Cell

variable {c : Config} {cell : Cell}

theorem distinctKeys_clearCount {v : Json} (h : v.distinctKeys) :
    (Json.clearCount v).distinctKeys :=
  Json.distinctKeys_onObject (fun _ ho => Json.distinctKeys_modify (fun _ _ => rfl) ho) h

theorem distinctKeys_clearOutputCounts (h : (Json.obj cell).distinctKeys) :
    (Json.obj (clearOutputCounts cell)).distinctKeys := by
  refine Json.distinctKeys_modify (fun v hv => ?_) h
  cases v with
  | arr items =>
    rw [Json.distinctKeys_arr_iff] at hv
    refine Json.distinctKeys_arr_iff.mpr fun w hw => ?_
    obtain ⟨item, hitem, rfl⟩ := List.mem_map.mp hw
    exact distinctKeys_clearCount (hv item hitem)
  | _ => exact hv

theorem distinctKeys_cleanCode (h : (Json.obj cell).distinctKeys) :
    (Json.obj (cleanCode c cell)).distinctKeys := by
  have hcount : (Json.obj (if c.preserveCounts then cell
      else Object.insert "execution_count" .null cell)).distinctKeys := by
    split
    · exact h
    · exact Json.distinctKeys_insert h rfl _
  unfold cleanCode
  dsimp only
  split
  · exact Json.distinctKeys_insert hcount rfl _
  · split
    · exact distinctKeys_clearOutputCounts hcount
    · exact hcount

theorem distinctKeys_metadata? (h : (Json.obj cell).distinctKeys) :
    (Json.obj (cell.metadata?.getD [])).distinctKeys := by
  rw [metadata?]
  cases hget : Object.get? cell "metadata" with
  | none => rfl
  | some v =>
    have hv := Json.distinctKeys_of_get? h hget
    cases v with
    | obj m => exact hv
    | _ => rfl

theorem distinctKeys_cleanMetadata (p : MetadataPolicy) (h : (Json.obj cell).distinctKeys) :
    (Json.obj (cleanMetadata p cell)).distinctKeys := by
  cases p with
  | preserveAll => exact h
  | strip => exact Json.distinctKeys_insert h rfl _
  | preserve fields =>
    have hkept := Json.distinctKeys_restrict fields.contains (distinctKeys_metadata? h)
    exact Json.distinctKeys_insert h hkept _

theorem distinctKeys_clean (h : (Json.obj cell).distinctKeys) :
    (Json.obj (cell.clean c)).distinctKeys := by
  apply distinctKeys_cleanMetadata
  split
  · exact distinctKeys_cleanCode h
  · exact h

end Cell

namespace Notebook

variable {c : Config} {nb : Notebook}

theorem distinctKeys_dropVersion {v : Json} (h : v.distinctKeys) :
    (Json.dropVersion v).distinctKeys := by
  have herase {v : Json} (hv : v.distinctKeys) :
      (Json.onObject (Object.erase "version") v).distinctKeys :=
    Json.distinctKeys_onObject (fun _ ho => Json.distinctKeys_restrict (· != "version") ho) hv
  exact Json.distinctKeys_onObject (fun _ ho => Json.distinctKeys_modify (fun _ => herase) ho) h

theorem distinctKeys_cleanDocument {root : Object} (h : (Json.obj root).distinctKeys) :
    (Json.obj (cleanDocument c root)).distinctKeys := by
  unfold cleanDocument
  split
  · exact Json.distinctKeys_insert h rfl _
  · split
    · exact h
    · exact Json.distinctKeys_modify (fun _ => distinctKeys_dropVersion) h

/-- Cleaning never makes a key occur twice. -/
theorem DistinctKeys.cleaned (h : nb.DistinctKeys) (c : Config) : (nb.cleaned c).DistinctKeys := by
  apply distinctKeys_cleanDocument
  refine Json.distinctKeys_insert h (Json.distinctKeys_arr_iff.mpr fun v hv => ?_) _
  obtain ⟨cell, hcell, rfl⟩ := List.mem_map.mp hv
  obtain ⟨before, hbefore, rfl⟩ := List.mem_map.mp hcell
  exact Cell.distinctKeys_clean (h.cells before (mem_of_mem_keptCells hbefore))

end Notebook

end NotebookCleaning
