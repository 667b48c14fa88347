import NotebookCleaning.Error

/-!
# Findings

`Notebook.findings` lists what cleaning under a configuration would take away: first cell by cell,
then from the document.
-/

namespace NotebookCleaning

/-- What is found in one cell. -/
inductive CellFinding where
  | blank
  | executionCount
  | outputs
  | outputCount
  | metadata (field : String)
  deriving DecidableEq

inductive Finding where
  | inCell (index : Nat) (what : CellFinding)
  | notebookMetadata
  | languageVersion
  deriving DecidableEq

namespace Finding

def message : Finding → String
  | inCell i .blank => s!"empty cell at index {i}"
  | inCell i .executionCount => s!"execution count in cell {i}"
  | inCell i .outputs => s!"output in cell {i}"
  | inCell i .outputCount => s!"output execution count in cell {i}"
  | inCell i (.metadata field) => s!"metadata in cell {i}: {field}"
  | notebookMetadata => "notebook metadata present"
  | languageVersion => "language_info.version present"

end Finding

namespace Cell

def codeFindings (c : Config) (cell : Cell) : List CellFinding :=
  (if !c.preserveCounts && cell.executionCount?.isSome then [.executionCount] else []) ++
  if !c.preserveOutputs then if cell.hasOutputs then [.outputs] else []
  else if !c.preserveCounts then List.replicate cell.countedOutputs .outputCount
  else []

/-- One finding for each field of the metadata that the policy does not keep. -/
def metadataFindings (p : MetadataPolicy) (cell : Cell) : List CellFinding :=
  match cell.metadata? with
  | some m => ((Object.keys m).filter fun f => !p.keeps f).map .metadata
  | none => []

def findings (c : Config) (cell : Cell) : List CellFinding :=
  (if c.removeEmptyCells && cell.isBlank then [.blank] else []) ++
  (if cell.isCode then codeFindings c cell else []) ++
  metadataFindings c.cellMetadata cell

end Cell

namespace Notebook

def documentFindings (c : Config) (nb : Notebook) : List Finding :=
  if c.removeNotebookMetadata then
    if (nb.metadata?.map fun m => !m.isEmpty).getD false then [.notebookMetadata] else []
  else if !c.preserveNotebookMetadata then
    if nb.languageVersion?.isSome then [.languageVersion] else []
  else []

def findings (c : Config) (nb : Notebook) : List Finding :=
  (nb.cells.zipIdx.flatMap fun cell => (cell.1.findings c).map (.inCell cell.2)) ++
  documentFindings c nb

/-- The findings, if the configuration is valid. -/
def check (c : Config) (nb : Notebook) : Except Error (List Finding) :=
  c.validate.map fun c => nb.findings c

end Notebook

end NotebookCleaning
