import Mathlib.Data.Finset.Max
import NotebookCleaning.Finding
import NotebookCleaning.Proofs.Arguments
import NotebookCleaning.Proofs.CleanedDocument
import NotebookCleaning.Proofs.Composition

/-!
# The arguments of a configuration

A configuration names the arguments that ask for it, and reading these arguments gives the
configuration back, but for a set without fields, which is read as no set at all and keeps as much.
They do so exactly if no field begins with a dash (`parse_filterArguments_iff`): of a field that
does, a reader takes the dash for that of an option.
-/

namespace NotebookCleaning

theorem FieldSet.ofList_fields (s : FieldSet) : FieldSet.ofList s.fields = s :=
  ext_of_contains fun f => by simp [contains]

namespace MetadataPolicy

/-- The fields that a policy names. -/
def named : MetadataPolicy → List String
  | preserve fields => fields.fields
  | _ => []

/-- The request for fields that asks for a policy. -/
def request : MetadataPolicy → Option (List String)
  | strip => none
  | preserveAll => some []
  | preserve fields => if fields.fields.isEmpty then none else some fields.fields

/-- The policy that a request gives back. -/
def requested (p : MetadataPolicy) : MetadataPolicy := ofRequest p.request

theorem requested_preserve (fields : FieldSet) :
    (preserve fields).requested = if fields.fields.isEmpty then strip else preserve fields := by
  rw [requested, request]
  cases hfields : fields.fields with
  | nil => rfl
  | cons f fs => exact congrArg preserve (by rw [← hfields, fields.ofList_fields])

theorem keeps_requested (p : MetadataPolicy) (f : String) : p.requested.keeps f = p.keeps f := by
  cases p with
  | preserve fields =>
    rw [requested_preserve]
    split
    · next hempty => simp [keeps, FieldSet.contains, List.isEmpty_iff.mp hempty]
    · rfl
  | _ => rfl

end MetadataPolicy

namespace Config

variable (c : Config)

/-- The configuration that the arguments of a configuration ask for. -/
def requested : Config := { c with cellMetadata := c.cellMetadata.requested }

theorem get_set (f g : Flag) (b : Bool) : (c.set f b).get g = if g = f then b else c.get g := by
  cases f <;> cases g <;> rfl

theorem cellMetadata_set (f : Flag) (b : Bool) : (c.set f b).cellMetadata = c.cellMetadata := by
  cases f <;> rfl

theorem cellMetadata_foldr_set {α : Type} {flag : α → Flag} {value : α → Bool} (xs : List α) :
    (xs.foldr (fun x c => c.set (flag x) (value x)) c).cellMetadata = c.cellMetadata := by
  induction xs with
  | nil => rfl
  | cons x xs ih => rw [List.foldr_cons, cellMetadata_set, ih]

theorem ext_of_get {c c' : Config} (h : ∀ f, c.get f = c'.get f)
    (hmetadata : c.cellMetadata = c'.cellMetadata) : c = c' := by
  obtain ⟨e, p, o, k, n, r⟩ := c
  obtain ⟨e', p', o', k', n', r'⟩ := c'
  cases hmetadata
  cases h .removeEmptyCells
  cases h .preserveOutputs
  cases h .preserveCounts
  cases h .preserveNotebookMetadata
  cases h .removeNotebookMetadata
  rfl

/-- The flags that are written before the fields. -/
def leadingFlags : List Flag := [.removeEmptyCells, .removeNotebookMetadata]

/-- The flags that are written behind the fields. -/
def trailingFlags : List Flag := [.preserveOutputs, .preserveCounts, .preserveNotebookMetadata]

theorem filterArguments_eq : c.filterArguments =
    (leadingFlags.filter c.get).map Flag.argument ++
      (policyArguments c.cellMetadata ++ (trailingFlags.filter c.get).map Flag.argument) := by
  have hflag (f : Flag) (fs : List Flag) : ((f :: fs).filter c.get).map Flag.argument =
      (if c.get f then [f.argument] else []) ++ (fs.filter c.get).map Flag.argument := by
    rw [List.filter_cons]
    split <;> rfl
  simp only [leadingFlags, trailingFlags, hflag, List.filter_nil, List.map_nil, List.append_nil,
    List.append_assoc, filterArguments]
  rfl

end Config

namespace Command

open Config

variable {verb : Verb} {c : Config}

theorem get_foldr_set (fs : List Flag) (c : Config) (g : Flag) :
    (fs.foldr (fun f c => c.set f true) c).get g = (decide (g ∈ fs) || c.get g) := by
  induction fs with
  | nil => simp
  | cons f fs ih =>
    rw [List.foldr_cons, get_set, ih]
    by_cases hg : g = f <;> simp [hg]

/-- The draft that the arguments of a configuration give. -/
def draftOf (c : Config) : Draft where
  flags := (trailingFlags.filter c.get).reverse ++ (leadingFlags.filter c.get).reverse
  fields := c.cellMetadata.request

theorem config_draftOf (c : Config) : (draftOf c).config = c.requested := by
  refine ext_of_get (fun f => ?_) ?_
  · rw [Draft.config, get_foldr_set]
    have hdefault : Config.get { cellMetadata := .ofRequest (draftOf c).fields } f = false := by
      cases f <;> rfl
    rw [hdefault, Bool.or_false]
    cases f <;> simp [draftOf, leadingFlags, trailingFlags, Config.get, requested]
  · rw [Draft.config, cellMetadata_foldr_set]
    rfl

theorem scan_policyArguments {p : MetadataPolicy} {d : Draft} (hverb : verb.takesConfig)
    (hp : ∀ f ∈ p.named, Undashed f) (hd : d.fields = none) (args : List String) :
    ∃ listing, scan verb false d (policyArguments p ++ args) =
      scan verb listing { d with fields := p.request } args := by
  have hnone : scan verb false d args = scan verb false { d with fields := none } args := by
    rw [← hd]
  cases p with
  | strip => exact ⟨false, hnone⟩
  | preserveAll =>
    refine ⟨true, ?_⟩
    rw [policyArguments, List.singleton_append, scan_fieldsOption hverb]
    simp [Draft.addFields, hd, MetadataPolicy.request]
  | preserve fields =>
    rw [policyArguments, MetadataPolicy.request]
    split
    · exact ⟨false, hnone⟩
    · refine ⟨true, ?_⟩
      have hopened : (d.addFields []).fields = some [] := by simp [Draft.addFields, hd]
      have hfields : ∀ f ∈ fields.fields, Undashed f := hp
      rw [List.cons_append, scan_fieldsOption hverb, scan_fields hopened hfields]
      rfl

theorem scan_filterArguments (hverb : verb.takesConfig)
    (hc : ∀ f ∈ c.cellMetadata.named, Undashed f) :
    scan verb false {} c.filterArguments = .ok (draftOf c) := by
  have hleading : leadingFlags.Nodup := by decide
  have htrailing : trailingFlags.Nodup := by decide
  have hnew : ∀ f ∈ trailingFlags.filter c.get, f ∉ leadingFlags.filter c.get := by
    intro f hf hmem
    have hdisjoint : ∀ f ∈ trailingFlags, f ∉ leadingFlags := by decide
    exact hdisjoint f (List.mem_of_mem_filter hf) (List.mem_of_mem_filter hmem)
  rw [filterArguments_eq, scan_arguments hverb (hleading.filter _) (by simp)]
  obtain ⟨listing, hpolicy⟩ := scan_policyArguments
    (d := { flags := (leadingFlags.filter c.get).reverse }) hverb hc rfl
    ((trailingFlags.filter c.get).map Flag.argument)
  rw [List.append_nil, Bool.false_and, hpolicy, ← List.append_nil (List.map _ _),
    scan_arguments hverb (htrailing.filter _) (by simpa using hnew)]
  rfl

/-- The arguments of a configuration ask for it, if none of its fields begins with a dash. -/
theorem request_filterArguments (verbosity : Nat) (hverb : verb.takesConfig)
    (hc : ∀ f ∈ c.cellMetadata.named, Undashed f) : request verbosity verb c.filterArguments =
      .ok { verb, verbosity, config := c.requested, json := false, paths := [] } := by
  rw [request, scan_filterArguments hverb hc, ← config_draftOf]
  rfl

theorem parse_clean (args : List String) : parse ("clean" :: args) = request 0 .clean args := rfl

theorem parse_check (args : List String) : parse ("check" :: args) = request 0 .check args := rfl

end Command

section Requested

variable (c : Config)

theorem Config.valid_requested_iff : c.requested.Valid ↔ c.Valid := Iff.rfl

/-- A set without fields keeps of the metadata what no set keeps: nothing. -/
theorem Cell.cleanMetadata_requested (p : MetadataPolicy) (cell : Cell) :
    cleanMetadata p.requested cell = cleanMetadata p cell := by
  cases p with
  | preserve fields =>
    rw [MetadataPolicy.requested_preserve]
    split
    · next hempty =>
      have hnone : Object.restrict fields.contains (cell.metadata?.getD []) = [] := by
        simp [Object.restrict, FieldSet.contains, List.isEmpty_iff.mp hempty]
      rw [cleanMetadata, cleanMetadata, hnone]
    · rfl
  | _ => rfl

theorem Notebook.cleaned_requested (nb : Notebook) : nb.cleaned c.requested = nb.cleaned c := by
  have hclean : Cell.clean c.requested = Cell.clean c := by
    funext cell
    exact Cell.cleanMetadata_requested c.cellMetadata _
  have hcells (cells : List Cell) : cleanCells c.requested cells = cleanCells c cells := by
    rw [cleanCells, hclean]
    rfl
  simp only [cleaned, hcells]
  rfl

theorem Notebook.clean_requested (nb : Notebook) : nb.clean c.requested = nb.clean c := by
  unfold clean Config.validate
  split
  · next hc =>
    rw [if_pos ((c.valid_requested_iff).mp hc)]
    exact congrArg Except.ok (nb.cleaned_requested c)
  · next hc => rw [if_neg (mt (c.valid_requested_iff).mpr hc)]

end Requested

namespace Notebook

variable {c c' : Config}

/-- A notebook with one cell. -/
def single (cell : Cell) : Notebook where
  root := [("cells", .arr [.obj cell])]
  shape := defect?_eq_none_iff.mp rfl

theorem cells_cleaned_single {cell : Cell} (hcell : cell.isBlank = false) :
    ((single cell).cleaned c).cells = [cell.clean c] := by
  have hcells : (single cell).cells = [cell] := rfl
  rw [cells_cleaned, hcells, cleanCells_eq, keptCells]
  simp [hcell]

/-- Configurations that clean a notebook with one cell alike clean this cell alike. -/
theorem clean_cell_eq (hc : c.Valid) {cell : Cell} (hcell : cell.isBlank = false)
    (hsame : (single cell).clean c' = (single cell).clean c) : cell.clean c' = cell.clean c := by
  have hclean := hsame.trans (clean_of_valid hc _)
  have hcells := congrArg Notebook.cells (clean_eq_ok_iff.mp hclean).2
  rw [cells_cleaned_single hcell, cells_cleaned_single hcell] at hcells
  exact List.head_eq_of_cons_eq hcells

end Notebook

namespace Cell

variable {c : Config}

/-- A cell with text and with one field in its metadata. -/
def fieldCell (f : String) : Cell := [("source", .str "text"), ("metadata", .obj [(f, .null)])]

/-- A cell with text and nothing else. -/
def bareCell : Cell := [("source", .str "text")]

theorem metadata?_clean_fieldCell (f : String) :
    ((fieldCell f).clean c).metadata? = some [(f, .null)] ↔ c.cellMetadata.keeps f := by
  have hmetadata : (fieldCell f).metadata? = some [(f, .null)] := rfl
  rw [metadata?_clean, hmetadata]
  cases c.cellMetadata with
  | strip => simp [MetadataPolicy.keeps]
  | preserveAll => simp [MetadataPolicy.keeps]
  | preserve fields => simp [MetadataPolicy.keeps, Object.restrict, List.filter_cons]

theorem metadata?_clean_bareCell :
    (bareCell.clean c).metadata? = none ↔ c.cellMetadata = .preserveAll := by
  have hmetadata : bareCell.metadata? = none := rfl
  rw [metadata?_clean, hmetadata]
  cases c.cellMetadata <;> simp

end Cell

namespace Command

open Config

variable {c : Config}

/-- If what the arguments ask for keeps the fields of a configuration, each field is supplied by an
argument. -/
theorem supplied_of_parse {r : Request} (hparse : parse ("clean" :: c.filterArguments) = .ok r)
    (hall : r.config.cellMetadata ≠ .preserveAll) {f : String}
    (hf : r.config.cellMetadata.keeps f) : ∃ arg ∈ c.filterArguments, Supplies arg f := by
  rw [parse_clean] at hparse
  obtain ⟨d, hscan, hr⟩ := bind_eq_ok_iff.mp hparse
  cases hr
  have hpolicy : d.config.cellMetadata = .ofRequest d.fields := cellMetadata_foldr_set _ _
  rw [hpolicy] at hall hf
  have hmem : f ∈ d.fields.getD [] := by
    cases hfields : d.fields with
    | none =>
      rw [hfields] at hf
      cases hf
    | some fs =>
      cases fs with
      | nil =>
        rw [hfields] at hall
        exact absurd rfl hall
      | cons g gs =>
        rw [hfields] at hf
        simpa [MetadataPolicy.ofRequest, MetadataPolicy.keeps, FieldSet.contains] using hf
  exact (supplied_of_scan hscan hmem).resolve_left (by simp)

theorem mem_policyArguments {p : MetadataPolicy} {arg : String} (h : arg ∈ policyArguments p) :
    arg = "--preserve-cell-metadata" ∨ arg ∈ p.named := by
  cases p with
  | strip => cases h
  | preserveAll => exact .inl (List.mem_singleton.mp h)
  | preserve fields =>
    rw [policyArguments] at h
    split at h
    · cases h
    · exact List.mem_cons.mp h

/-- Among the arguments of a configuration only its fields supply a field. -/
theorem mem_named_of_supplies {arg f : String} (harg : arg ∈ c.filterArguments)
    (h : Supplies arg f) : arg ∈ c.cellMetadata.named := by
  have hflag {fs : List Flag} : arg ∉ fs.map Flag.argument := by
    intro hmem
    obtain ⟨flag, -, rfl⟩ := List.mem_map.mp hmem
    exact not_supplies_argument flag f h
  rw [filterArguments_eq, List.mem_append, List.mem_append] at harg
  rcases harg with hmem | hmem | hmem
  · exact absurd hmem hflag
  · rcases mem_policyArguments hmem with rfl | hmem
    · exact absurd h (not_supplies_fieldsOption f)
    · exact hmem
  · exact absurd hmem hflag

theorem keeps_of_mem_named {p : MetadataPolicy} {f : String} (h : f ∈ p.named) :
    p.keeps f ∧ p ≠ .preserveAll := by
  cases p with
  | preserve fields => exact ⟨List.contains_iff_mem.mpr h, nofun⟩
  | _ => cases h

/-- For a field that does not stand for itself and is kept nevertheless there is a longer one. -/
theorem exists_longer {r : Request} (hc : c.Valid)
    (hparse : parse ("clean" :: c.filterArguments) = .ok r)
    (hsame : ∀ nb : Notebook, nb.clean r.config = nb.clean c) {f : String}
    (hf : f ∈ c.cellMetadata.named) (hdash : ¬Undashed f) :
    ∃ g ∈ c.cellMetadata.named, ¬Undashed g ∧ f.length < g.length := by
  obtain ⟨hkeeps, hall⟩ := keeps_of_mem_named hf
  have hkeeps' : r.config.cellMetadata.keeps f := by
    have hcell := Notebook.clean_cell_eq hc rfl (hsame (.single (Cell.fieldCell f)))
    rwa [← Cell.metadata?_clean_fieldCell, hcell, Cell.metadata?_clean_fieldCell]
  have hall' : r.config.cellMetadata ≠ .preserveAll := by
    have hcell := Notebook.clean_cell_eq hc rfl (hsame (.single Cell.bareCell))
    rwa [ne_eq, ← Cell.metadata?_clean_bareCell, hcell, Cell.metadata?_clean_bareCell]
  obtain ⟨arg, harg, hsupplies⟩ := supplied_of_parse hparse hall' hkeeps'
  exact ⟨arg, mem_named_of_supplies harg hsupplies, hsupplies.length_lt hdash⟩

/-- The arguments of a configuration are read back as one that cleans every notebook alike exactly
if none of its fields begins with a dash, a dash alone excepted. -/
theorem parse_filterArguments_iff (hc : c.Valid) :
    (∃ r, parse ("clean" :: c.filterArguments) = .ok r ∧ r.verb = .clean ∧ r.paths = [] ∧
        ∀ nb : Notebook, nb.clean r.config = nb.clean c) ↔
      ∀ f ∈ c.cellMetadata.named, Undashed f := by
  constructor
  · rintro ⟨r, hparse, -, -, hsame⟩ f hf
    by_contra hdash
    -- Of the fields that do not stand for themselves none could be the longest.
    let dashed := c.cellMetadata.named.toFinset.filter fun f => ¬Undashed f
    have hne : dashed.Nonempty := ⟨f, by simp [dashed, hf, hdash]⟩
    obtain ⟨g, hg, hmax⟩ := dashed.exists_max_image String.length hne
    have hg : g ∈ c.cellMetadata.named ∧ ¬Undashed g := by simpa [dashed] using hg
    obtain ⟨h, hmem, hdash, hlt⟩ := exists_longer hc hparse hsame hg.1 hg.2
    exact Nat.not_le.mpr hlt (hmax h (by simp [dashed, hmem, hdash]))
  · intro hfields
    refine ⟨_, (parse_clean _).trans (request_filterArguments 0 rfl hfields), rfl, rfl, ?_⟩
    exact fun nb => nb.clean_requested c

/-- A configuration with an empty field, a dash and a field with a blank between its flags. -/
def severalFields : Config where
  removeEmptyCells := true
  cellMetadata := .preserve (.ofList ["tags", "", "-", "my field"])
  preserveCounts := true

theorem parse_filterArguments_iff_severalFields : severalFields.Valid ∧
    ((∃ r, parse ("clean" :: severalFields.filterArguments) = .ok r ∧ r.verb = .clean ∧
        r.paths = [] ∧ ∀ nb : Notebook, nb.clean r.config = nb.clean severalFields) ↔
      ∀ f ∈ severalFields.cellMetadata.named, Undashed f) ∧
    ∀ f ∈ severalFields.cellMetadata.named, Undashed f :=
  ⟨by decide, parse_filterArguments_iff (by decide), by decide⟩

/-- A configuration that keeps a field with the name of an option. -/
def dashedField : Config := { cellMetadata := .preserve (.ofList ["-o"]) }

/-- What its arguments ask for. -/
def optionInstead : Config := { cellMetadata := .preserveAll, preserveOutputs := true }

/-- A field with the name of an option is read as that option, so all metadata are kept. -/
theorem dashed_field_read_as_option : dashedField.Valid ∧
    parse ("clean" :: dashedField.filterArguments) = .ok ⟨.clean, 0, optionInstead, false, []⟩ ∧
    ∃ nb : Notebook, nb.clean optionInstead ≠ nb.clean dashedField := by
  refine ⟨by decide, rfl, .single Cell.bareCell, fun hsame => ?_⟩
  have hcell := Notebook.clean_cell_eq (by decide) rfl hsame
  have hnone : (Cell.bareCell.clean optionInstead).metadata? = none := rfl
  rw [hcell, Cell.metadata?_clean_bareCell] at hnone
  cases hnone

end Command

end NotebookCleaning
