import NotebookCleaning.Proofs.Completeness

/-!
# What a laxer check finds

A configuration is laxer than another if it keeps at least as much. The laxer one may look for
things that the stricter one has no name for: counts in outputs where the stricter one wants no
outputs at all, and the version of the language where it wants no metadata. A notebook that is clean
under the stricter configuration has none of these either (`check_eq_nil_of_laxer`).
-/

namespace NotebookCleaning

namespace Config

/-- How much is kept of the metadata of a document: nothing, all but the version of the language, or
everything. -/
def documentRank (c : Config) : Nat :=
  if c.removeNotebookMetadata then 0 else if c.preserveNotebookMetadata then 2 else 1

/-- The second configuration keeps at least as much as the first. -/
structure Laxer (c₁ c₂ : Config) : Prop where
  emptyCells : c₂.removeEmptyCells → c₁.removeEmptyCells
  outputs : c₁.preserveOutputs → c₂.preserveOutputs
  counts : c₁.preserveCounts → c₂.preserveCounts
  fields : ∀ f, c₁.cellMetadata.keeps f → c₂.cellMetadata.keeps f
  document : c₁.documentRank ≤ c₂.documentRank

/-- Keeps nothing that can be taken away. -/
def strictest : Config where
  removeEmptyCells := true
  removeNotebookMetadata := true

theorem Laxer.strictest (c : Config) : strictest.Laxer c where
  emptyCells _ := rfl
  outputs := nofun
  counts := nofun
  fields := nofun
  document := Nat.zero_le _

end Config

variable {c c₁ c₂ : Config}

namespace Cell

variable {cell : Cell}

theorem countedOutputs_eq_zero (h : cell.hasOutputs = false) : cell.countedOutputs = 0 := by
  unfold hasOutputs at h
  unfold countedOutputs
  split
  · next items hget =>
    simp only [hget, Bool.not_eq_false', List.isEmpty_iff] at h
    rw [h, List.countP_nil]
  · rfl

theorem metadataFindings_eq_nil_iff {p : MetadataPolicy} : metadataFindings p cell = [] ↔
    ∀ m, cell.metadata? = some m → ∀ f ∈ Object.keys m, p.keeps f = true := by
  unfold metadataFindings
  split
  · next m hm => simp [hm]
  · next hm => simp [hm]

/-- Where outputs are kept, their counts are looked for; a cell without outputs has none. -/
theorem codeFindings_eq_nil_of_laxer (h : c₁.Laxer c₂) (hcell : codeFindings c₁ cell = []) :
    codeFindings c₂ cell = [] := by
  rw [codeFindings_eq_nil_iff] at hcell ⊢
  obtain ⟨hcount, houtputs⟩ := hcell
  refine ⟨hcount.imp_left h.counts, ?_⟩
  cases hkept : c₁.preserveOutputs with
  | true =>
    rw [if_pos hkept] at houtputs
    rw [if_pos (h.outputs hkept)]
    exact houtputs.imp_left h.counts
  | false =>
    rw [hkept, if_neg (by decide)] at houtputs
    split
    · exact .inr (countedOutputs_eq_zero houtputs)
    · exact houtputs

theorem metadataFindings_eq_nil_of_laxer (h : c₁.Laxer c₂)
    (hcell : metadataFindings c₁.cellMetadata cell = []) :
    metadataFindings c₂.cellMetadata cell = [] := by
  rw [metadataFindings_eq_nil_iff] at hcell ⊢
  exact fun m hm f hf => h.fields f (hcell m hm f hf)

theorem findings_eq_nil_of_laxer (h : c₁.Laxer c₂) (hcell : cell.findings c₁ = []) :
    cell.findings c₂ = [] := by
  simp only [findings, List.append_eq_nil_iff] at hcell ⊢
  obtain ⟨⟨hblank, hcode⟩, hmetadata⟩ := hcell
  refine ⟨⟨?_, ?_⟩, metadataFindings_eq_nil_of_laxer h hmetadata⟩
  · have hempty := h.emptyCells
    simp only [ite_eq_right_iff, List.cons_ne_nil, imp_false, Bool.and_eq_true] at hblank ⊢
    exact fun hdropped => hblank ⟨hempty hdropped.1, hdropped.2⟩
  · split
    · next his =>
      rw [if_pos his] at hcode
      exact codeFindings_eq_nil_of_laxer h hcode
    · rfl

end Cell

namespace Notebook

variable {nb : Notebook}

/-- Metadata without entries say nothing of the language. -/
theorem languageVersion?_eq_none (h : nb.metadata?.getD [] = []) : nb.languageVersion? = none := by
  rw [languageVersion?]
  cases hm : nb.metadata? with
  | none => rfl
  | some m =>
    rw [hm, Option.getD_some] at h
    rw [h]
    rfl

theorem documentFindings_eq_nil_iff_rank : documentFindings c nb = [] ↔
    (c.documentRank = 0 → nb.metadata?.getD [] = []) ∧
      (c.documentRank = 1 → nb.languageVersion? = none) := by
  unfold documentFindings Config.documentRank
  cases c.removeNotebookMetadata with
  | true => cases nb.metadata? <;> simp
  | false => cases c.preserveNotebookMetadata <;> simp

theorem documentFindings_eq_nil_of_laxer (h : c₁.Laxer c₂) (hnb : documentFindings c₁ nb = []) :
    documentFindings c₂ nb = [] := by
  have hrank := h.document
  rw [documentFindings_eq_nil_iff_rank] at hnb ⊢
  obtain ⟨hempty, hversion⟩ := hnb
  constructor
  · intro h₂
    exact hempty (by omega)
  · intro h₂
    rcases Nat.eq_zero_or_pos c₁.documentRank with h₁ | h₁
    · exact languageVersion?_eq_none (hempty h₁)
    · exact hversion (by omega)

theorem findings_eq_nil_of_laxer (h : c₁.Laxer c₂) (hnb : nb.findings c₁ = []) :
    nb.findings c₂ = [] := by
  rw [findings_eq_nil_iff] at hnb ⊢
  obtain ⟨hcells, hdocument⟩ := hnb
  exact ⟨fun cell hcell => Cell.findings_eq_nil_of_laxer h (hcells cell hcell),
    documentFindings_eq_nil_of_laxer h hdocument⟩

/-- A notebook in which a check finds nothing is clean under every valid configuration that keeps
at least as much. -/
theorem check_eq_nil_of_laxer (h : c₁.Laxer c₂) (h₁ : c₁.Valid) (h₂ : c₂.Valid)
    (hcheck : nb.check c₁ = .ok []) : nb.check c₂ = .ok [] := by
  rw [check_of_valid h₁, Except.ok.injEq] at hcheck
  rw [check_of_valid h₂, findings_eq_nil_of_laxer h hcheck]

/-- A notebook with nothing in it that can be taken away. -/
def emptied : Notebook where
  root := [("cells", .arr [.obj [("cell_type", .str "code"), ("source", .str "x"),
      ("metadata", .obj []), ("outputs", .arr [])]]),
    ("metadata", .obj [])]
  shape := defect?_eq_none_iff.mp rfl

theorem check_eq_nil_of_laxer_emptied : Config.strictest.Laxer { preserveOutputs := true } ∧
    Config.strictest.Valid ∧ Config.Valid { preserveOutputs := true } ∧
    emptied.check .strictest = .ok [] ∧ emptied.check { preserveOutputs := true } = .ok [] :=
  ⟨.strictest _, by decide, by decide, rfl,
    check_eq_nil_of_laxer (.strictest _) (by decide) (by decide) rfl⟩

end Notebook

end NotebookCleaning
