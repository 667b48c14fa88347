import NotebookCleaning.Proofs.CleanedFiles
import NotebookCleaning.Proofs.Rereading
import NotebookCleaning.Proofs.Same

/-!
# When a file is written

A file is written exactly if its text is not that of the cleaned notebook (`written_iff`). One half
is not plain: a notebook might be read from the text of its cleaned self and still differ from it,
since a reader takes an object that begins with `numberKey` for a number. But where it does so, the
notebook has a number that cleaning has made an object with entries of, and cleaning makes those of
objects only. So a notebook with such a text is its own cleaned self (`cleaned_eq_self_of_text`).
-/

namespace NotebookCleaning

open Object

namespace Cell

open Json

variable {depth : Nat} {c : Config} {cell : Cell}

theorem writable_cleanMetadata {p : MetadataPolicy} (h : LegibleObject (depth + 1) cell) :
    Writable (depth + 2) (.obj (cleanMetadata p cell)) := by
  have hcell : Writable (depth + 2) (.obj cell) := .legible (legible_obj_iff.mpr h)
  cases p with
  | preserveAll => exact hcell
  | strip => exact hcell.insert (.legible (legible_obj_iff.mpr legibleObject_nil)) _
  | preserve fields =>
    have hmetadata : Writable (depth + 1) (.obj (cell.metadata?.getD [])) :=
      .legible (legible_obj_iff.mpr (legible_metadata? h))
    exact hcell.insert (hmetadata.restrict _) _

theorem writable_clean (h : LegibleObject (depth + 1) cell) :
    Writable (depth + 2) (.obj (cell.clean c)) := by
  apply writable_cleanMetadata
  split
  · exact legible_cleanCode h
  · exact h

/-- If the cell that is read is the one that was cleaned, its clean metadata are read as an object
where they have been made of one. -/
theorem beginsAsNumber_metadata_of_reread (h : Reread (.obj (cell.clean c)) (.obj cell)) {v : Json}
    (hv : get? (cell.clean c) "metadata" = some v) : v.beginsAsNumber = false := by
  obtain ⟨w, hw, hvw⟩ := h.get? hv
  cases w with
  | obj o => exact hvw.beginsAsNumber_eq_false
  | _ => exact beginsAsNumber_metadata_clean (fun o ho => by rw [hw] at ho; cases ho) hv

end Cell

namespace Notebook

open Json Json.Reader

variable {depth : Nat} {c : Config} {nb : Notebook} {text : String}

theorem writable_dropVersion {m : Object} (h : LegibleObject (depth + 1) m) :
    Writable (depth + 2) (.obj (modify "language_info" (onObject (erase "version")) m)) := by
  have hm : Writable (depth + 2) (.obj m) := .legible (legible_obj_iff.mpr h)
  refine hm.modify fun v hv => ?_
  have hlegible : Writable (depth + 1) v := .legible (h.values _ v hv)
  cases v with
  | obj info => exact hlegible.restrict (· != "version")
  | _ => exact hlegible

theorem writable_cleaned (h : LegibleObject (depth + 3) nb.root) :
    Writable (depth + 4) (.obj (nb.cleaned c).root) := by
  have hroot : Writable (depth + 4) (.obj nb.root) := .legible (legible_obj_iff.mpr h)
  have hput : Writable (depth + 4) (.obj (putCells (cleanCells c nb.cells) nb.root)) := by
    refine hroot.insert (.arr fun v hv => ?_) _
    obtain ⟨cell, hcell, rfl⟩ := List.mem_map.mp hv
    obtain ⟨before, hbefore, rfl⟩ := List.mem_map.mp hcell
    exact Cell.writable_clean (legible_of_mem_cells h (mem_of_mem_keptCells hbefore))
  rw [root_cleaned, cleanDocument]
  split
  · exact hput.insert (.legible (legible_obj_iff.mpr legibleObject_nil)) _
  · split
    · exact hput
    · refine hput.modify fun v hv => ?_
      rw [putCells, get?_insert, if_neg (by decide), get?_metadata] at hv
      obtain ⟨m, hm, rfl⟩ := Option.map_eq_some_iff.mp hv
      exact writable_dropVersion (legible_of_metadata? h hm)

/-- As many cells are read as have been written, so none has been dropped, and each clean cell is
read as the cell that it has been made of. -/
theorem reread_clean_of_reread (h : Reread (nb.cleaned c).toJson nb.toJson) :
    keptCells c nb.cells = nb.cells ∧
      ∀ cell ∈ nb.cells, Reread (.obj (cell.clean c)) (.obj cell) := by
  obtain ⟨w, hw, hcells⟩ := h.get? (nb.cleaned c).get?_cells
  rw [get?_cells] at hw
  cases hw
  have hitems := hcells.items
  rw [cells_cleaned, List.forall₂_map_left_iff, List.forall₂_map_right_iff] at hitems
  have hkept := keptCells_eq_self_of_length hitems.length_eq
  rw [cleanCells_eq, hkept, List.forall₂_map_left_iff, List.forall₂_same] at hitems
  exact ⟨hkept, hitems⟩

theorem beginsAsNumber_languageInfo_of_reread (h : Reread (nb.cleaned c).toJson nb.toJson)
    {m : Object} {v : Json} (hm : (nb.cleaned c).metadata? = some m)
    (hv : get? m "language_info" = some v) : v.beginsAsNumber = false := by
  have hroot : get? (nb.cleaned c).root "metadata" = some (.obj m) := by
    rw [get?_metadata, hm]
    rfl
  obtain ⟨w, hw, hreread⟩ := h.get? hroot
  obtain ⟨before, rfl⟩ := nb.shape.metadata w hw
  obtain ⟨w, hinfo, hvw⟩ := hreread.get? hv
  cases w with
  | obj info => exact hvw.beginsAsNumber_eq_false
  | _ =>
    refine beginsAsNumber_languageInfo_cleaned c (fun m' o hm' ho => ?_) hm hv
    rw [metadata?, hw] at hm'
    cases hm'
    rw [hinfo] at ho
    cases ho

/-- Where the notebook is read from the text of its cleaned self, no object is read as a number. -/
theorem unmistakable_of_reread (h : Reread (nb.cleaned c).toJson nb.toJson) :
    (nb.cleaned c).Unmistakable := by
  intro v hv
  rcases mem_filteredValues.mp hv with ⟨cell, hcell, hget⟩ | ⟨m, hm, hget⟩
  · obtain ⟨hkept, hclean⟩ := reread_clean_of_reread h
    rw [cells_cleaned, cleanCells_eq, hkept] at hcell
    obtain ⟨before, hbefore, rfl⟩ := List.mem_map.mp hcell
    exact Cell.beginsAsNumber_metadata_of_reread (hclean before hbefore) hget
  · exact beginsAsNumber_languageInfo_of_reread h hm hget

/-- A notebook that is read from the text of its cleaned self is the cleaned notebook itself. -/
theorem cleaned_eq_self_of_text (h : ofText? (nb.cleaned c).text = .ok nb) :
    nb.cleaned c = nb := by
  have hlegible := legible_of_ofOctets? h
  have hwritable : Writable maxDepth (nb.cleaned c).toJson :=
    writable_cleaned (legible_obj_iff.mp hlegible)
  have hreread : Reread (nb.cleaned c).toJson nb.toJson :=
    reread_of_render hwritable (parse_of_ofOctets? h)
  have hcleaned : ofText? (nb.cleaned c).text = .ok (nb.cleaned c) :=
    ofText?_text_iff.mpr ((legible_cleaned_iff hlegible).mpr (unmistakable_of_reread hreread))
  exact (Except.ok.inj (h.symm.trans hcleaned)).symm

theorem same_cleaned_of_text (h : ofText? (nb.cleaned c).text = .ok nb) :
    nb.same (nb.cleaned c) := by
  rw [cleaned_eq_self_of_text h]
  exact same_refl (distinctKeys_of_ofOctets? h)

end Notebook

namespace Command

open FileTree

variable {c : Config} {s : Sources} {p : Path} {l : Location} {nb : Notebook} {text : String}

/-- What storing does at the path of a file, with the two tests for leaving it alone. -/
theorem store_of_readText {t : FileTree} (hfile : t.file? p = some l)
    (htext : t.readText p = .ok text) (original cleaned : Notebook) :
    store t p original cleaned =
      if original.same cleaned = true ∧ text = cleaned.text then (.kept, t)
      else (.written, t.writeAt l (Utf8.encode cleaned.text)) := by
  obtain ⟨content, hfind⟩ := file?_eq_some_iff.mp hfile
  rw [store, htext, write_of_find hfind]
  simp only [Except.toOption, Option.some.injEq, Bool.and_eq_true, decide_eq_true_eq]

/-- Cleaning a file that holds the text of a notebook writes the file just if the text of the
cleaned notebook is another one, and in either case the file holds the latter afterwards. Where the
texts agree, so do the notebooks, even if an object in the text spells a number. -/
theorem written_iff (hc : c.Valid) (htext : s.tree.readText p = .ok text)
    (hnb : Notebook.ofText? text = .ok nb) :
    ∃ after action l t', nb.clean c = .ok after ∧ s.tree.file? p = some l ∧
      cleanInput c s (.file p) = (⟨.file p, .ok (nb, action)⟩, t') ∧
      (action = .written ↔ text ≠ after.text) ∧
      (text ≠ after.text → t'.written = s.tree.written ++ [l]) ∧
      (text = after.text → action = .kept ∧ t' = s.tree ∧ nb.same after = true) ∧
      t'.readText p = .ok after.text ∧ s.tree.Replaced t' l (Utf8.encode after.text) := by
  obtain ⟨l, hfind⟩ := find_of_read (readText_eq_ok_iff.mp htext)
  have hfile : s.tree.file? p = some l := file?_eq_some_iff.mpr ⟨_, hfind⟩
  have hnotebook : (Input.file p).notebook s = .ok nb := by
    rw [Input.notebook_of_find hfind, hnb]
    rfl
  have hclean := Notebook.clean_of_valid hc nb
  have hstore := store_of_readText hfile htext nb (nb.cleaned c)
  by_cases h : text = (nb.cleaned c).text
  · have hsame : nb.same (nb.cleaned c) = true := Notebook.same_cleaned_of_text (h ▸ hnb)
    rw [if_pos ⟨hsame, h⟩] at hstore
    refine ⟨nb.cleaned c, .kept, l, s.tree, hclean, hfile,
      cleanInput_of_store hnotebook hclean hstore, by simp [h], fun hne => absurd h hne,
      fun _ => ⟨rfl, rfl, hsame⟩, h ▸ htext, .refl ?_⟩
    rw [← h]
    exact get?_of_find hfind
  · rw [if_neg fun hboth => h hboth.2] at hstore
    have hreplaced : s.tree.Replaced (s.tree.writeAt l (Utf8.encode (nb.cleaned c).text)) l _ :=
      replaced_writeAt (get?_of_find hfind)
    have hfile' := (file?_eq_of_outline_eq hreplaced.outline p).trans hfile
    exact ⟨nb.cleaned c, .written, l, _, hclean, hfile,
      cleanInput_of_store hnotebook hclean hstore, by simp [h], fun _ => rfl,
      fun heq => absurd heq h,
      readText_eq_ok_iff.mpr (read_of_get? hfile' hreplaced.get?_self), hreplaced⟩

/-- A file with the text of a notebook that cleaning has left with an object that begins with
`numberKey`, so that this object is read as a number. -/
def misreadSources : Sources where
  standard := []
  tree := { nodes := [(["a.ipynb"], .file (Utf8.encode Notebook.misreadText))], current := [] }

theorem written_iff_misread : Config.Valid {} ∧
    misreadSources.tree.readText ⟨"a.ipynb"⟩ = .ok Notebook.misreadText ∧
    Notebook.ofText? Notebook.misreadText = .ok Notebook.misread ∧
    ∃ after action l t', Notebook.misread.clean {} = .ok after ∧
      misreadSources.tree.file? ⟨"a.ipynb"⟩ = some l ∧
      cleanInput {} misreadSources (.file ⟨"a.ipynb"⟩) =
        (⟨.file ⟨"a.ipynb"⟩, .ok (Notebook.misread, action)⟩, t') ∧
      (action = .written ↔ Notebook.misreadText ≠ after.text) ∧
      (Notebook.misreadText ≠ after.text → t'.written = misreadSources.tree.written ++ [l]) ∧
      (Notebook.misreadText = after.text →
        action = .kept ∧ t' = misreadSources.tree ∧ Notebook.misread.same after = true) ∧
      t'.readText ⟨"a.ipynb"⟩ = .ok after.text ∧
      misreadSources.tree.Replaced t' l (Utf8.encode after.text) :=
  have htext : misreadSources.tree.readText ⟨"a.ipynb"⟩ = .ok Notebook.misreadText := rfl
  have hnb : Notebook.ofText? Notebook.misreadText = .ok Notebook.misread := rfl
  ⟨by decide, htext, hnb, written_iff (by decide) htext hnb⟩

end Command

end NotebookCleaning
