import NotebookCleaning.Notebook.Basic
import NotebookCleaning.Proofs.Object

/-!
# Values without repeated keys

A value has distinct keys if no object in it, at any depth, repeats a key. This is a decidable
property, and every value that is read has it (`Json.distinctKeys_of_parse`).
-/

namespace NotebookCleaning

namespace Json

/-- Induction on a value, with hypotheses for the items of an array and the values of an object. -/
@[elab_as_elim]
theorem induction {motive : Json → Prop} (null : motive .null) (bool : ∀ b, motive (.bool b))
    (num : ∀ text, motive (.num text)) (str : ∀ s, motive (.str s))
    (arr : ∀ items, (∀ v ∈ items, motive v) → motive (.arr items))
    (obj : ∀ o : Object, (∀ e ∈ o, motive e.2) → motive (.obj o)) (v : Json) : motive v :=
  Json.rec (motive_1 := motive) (motive_2 := fun items => ∀ v ∈ items, motive v)
    (motive_3 := fun o => ∀ e ∈ o, motive e.2) (motive_4 := fun e => motive e.2)
    null bool num str arr obj (by simp) (fun _ _ hv hvs => List.forall_mem_cons.mpr ⟨hv, hvs⟩)
    (by simp) (fun _ _ he hes => List.forall_mem_cons.mpr ⟨he, hes⟩) (fun _ _ hv => hv) v

mutual

def distinctKeys : Json → Bool
  | .arr items => distinctKeysItems items
  | .obj entries => decide (Object.keys entries).Nodup && distinctKeysEntries entries
  | _ => true

def distinctKeysItems : List Json → Bool
  | [] => true
  | v :: vs => distinctKeys v && distinctKeysItems vs

def distinctKeysEntries : List (String × Json) → Bool
  | [] => true
  | (_, v) :: es => distinctKeys v && distinctKeysEntries es

end

theorem distinctKeys_arr_iff {items : List Json} :
    (Json.arr items).distinctKeys ↔ ∀ v ∈ items, v.distinctKeys := by
  rw [distinctKeys]
  induction items with
  | nil => simp [distinctKeysItems]
  | cons v vs ih => simp [distinctKeysItems, ih]

theorem distinctKeys_obj_iff {o : Object} :
    (Json.obj o).distinctKeys ↔ (Object.keys o).Nodup ∧ ∀ e ∈ o, e.2.distinctKeys := by
  have hentries : distinctKeysEntries o = true ↔ ∀ e ∈ o, e.2.distinctKeys := by
    induction o with
    | nil => simp [distinctKeysEntries]
    | cons e es ih => simp [distinctKeysEntries, ih]
  rw [distinctKeys, Bool.and_eq_true, decide_eq_true_eq, hentries]

variable {o : Object} {key : String} {v : Json}

theorem nodup_keys_of_distinctKeys (h : (Json.obj o).distinctKeys) : (Object.keys o).Nodup :=
  (distinctKeys_obj_iff.mp h).1

theorem distinctKeys_of_get? (h : (Json.obj o).distinctKeys) (hv : Object.get? o key = some v) :
    v.distinctKeys :=
  (distinctKeys_obj_iff.mp h).2 _ (Object.mem_of_get? hv)

theorem distinctKeys_obj_iff_get? : (Json.obj o).distinctKeys ↔
    (Object.keys o).Nodup ∧ ∀ key v, Object.get? o key = some v → v.distinctKeys := by
  constructor
  · intro h
    exact ⟨nodup_keys_of_distinctKeys h, fun _ _ => distinctKeys_of_get? h⟩
  · rintro ⟨ho, h⟩
    exact distinctKeys_obj_iff.mpr ⟨ho, fun e he => h e.1 e.2 (Object.get?_of_mem ho he)⟩

theorem distinctKeys_insert (ho : (Json.obj o).distinctKeys) (hv : v.distinctKeys) (key : String) :
    (Json.obj (o.insert key v)).distinctKeys := by
  rw [distinctKeys_obj_iff_get?] at ho ⊢
  exact ⟨Object.nodup_keys_insert ho.1, Object.forall_get?_insert ho.2 hv⟩

theorem distinctKeys_modify {f : Json → Json} (hf : ∀ v, v.distinctKeys → (f v).distinctKeys)
    (ho : (Json.obj o).distinctKeys) : (Json.obj (o.modify key f)).distinctKeys := by
  rw [distinctKeys_obj_iff_get?] at ho ⊢
  rw [Object.keys_modify]
  exact ⟨ho.1, Object.forall_get?_modify ho.2 fun v hv => hf v (ho.2 key v hv)⟩

theorem distinctKeys_restrict (keep : String → Bool) (ho : (Json.obj o).distinctKeys) :
    (Json.obj (o.restrict keep)).distinctKeys := by
  rw [distinctKeys_obj_iff] at ho ⊢
  rw [Object.keys_restrict]
  exact ⟨ho.1.filter _, fun e he => ho.2 e (List.mem_of_mem_filter he)⟩

theorem distinctKeys_onObject {f : Object → Object}
    (hf : ∀ o, (Json.obj o).distinctKeys → (Json.obj (f o)).distinctKeys) (hv : v.distinctKeys) :
    (onObject f v).distinctKeys := by
  cases v with
  | obj o => exact hf o hv
  | _ => exact hv

end Json

namespace Notebook

def DistinctKeys (nb : Notebook) : Prop := nb.toJson.distinctKeys

instance (nb : Notebook) : Decidable nb.DistinctKeys := inferInstanceAs (Decidable (_ = true))

variable {nb : Notebook}

theorem DistinctKeys.root (h : nb.DistinctKeys) : (Object.keys nb.root).Nodup :=
  Json.nodup_keys_of_distinctKeys h

theorem DistinctKeys.cells (h : nb.DistinctKeys) :
    ∀ cell ∈ nb.cells, (Json.obj cell).distinctKeys := by
  intro cell hcell
  have hitems := Json.distinctKeys_of_get? h nb.get?_cells
  exact Json.distinctKeys_arr_iff.mp hitems _ (List.mem_map_of_mem hcell)

theorem DistinctKeys.metadata (h : nb.DistinctKeys) {m : Object}
    (hm : Object.get? nb.root "metadata" = some (.obj m)) : (Json.obj m).distinctKeys :=
  Json.distinctKeys_of_get? h hm

/-- A code cell and a raw cell whose optional fields have unexpected types, and a blank cell. -/
def oddShapes : Notebook where
  root := [("cells", .arr [
      .obj [("metadata", .arr [.null]), ("cell_type", .str "code"), ("outputs", .str "text"),
        ("execution_count", .obj [("a", .num "1")])],
      .obj [("cell_type", .str "raw"), ("outputs", .num "7"), ("source", .bool true)],
      .obj [("source", .arr [.null, .str " "]), ("metadata", .obj [("tags", .arr [])])]]),
    ("metadata", .obj [("language_info", .str "python"), ("kernelspec", .null)])]
  shape := defect?_eq_none_iff.mp rfl

end Notebook

end NotebookCleaning
