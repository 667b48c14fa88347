import NotebookCleaning.Policy
import NotebookCleaning.Text.Shell

/-!
# Configurations

A configuration says what cleaning keeps. The default keeps least and drops no cell. The two
settings for the metadata of the document exclude each other: a configuration is `Valid` if at most
one of them is set. `filterArguments` are the command-line arguments that ask for a configuration.
-/

namespace NotebookCleaning

structure Config where
  removeEmptyCells : Bool := false
  cellMetadata : MetadataPolicy := .strip
  preserveOutputs : Bool := false
  preserveCounts : Bool := false
  preserveNotebookMetadata : Bool := false
  removeNotebookMetadata : Bool := false
  deriving DecidableEq

namespace Config

/-- The settings that are on or off. -/
inductive Flag where
  | removeEmptyCells
  | preserveOutputs
  | preserveCounts
  | preserveNotebookMetadata
  | removeNotebookMetadata
  deriving DecidableEq

namespace Flag

def all : List Flag :=
  [removeEmptyCells, preserveOutputs, preserveCounts, preserveNotebookMetadata,
    removeNotebookMetadata]

def name : Flag → String
  | removeEmptyCells => "remove_empty_cells"
  | preserveOutputs => "preserve_cell_outputs"
  | preserveCounts => "preserve_execution_counts"
  | preserveNotebookMetadata => "preserve_notebook_metadata"
  | removeNotebookMetadata => "remove_all_notebook_metadata"

def ofName? (s : String) : Option Flag := all.find? fun f => f.name = s

end Flag

def get (c : Config) : Flag → Bool
  | .removeEmptyCells => c.removeEmptyCells
  | .preserveOutputs => c.preserveOutputs
  | .preserveCounts => c.preserveCounts
  | .preserveNotebookMetadata => c.preserveNotebookMetadata
  | .removeNotebookMetadata => c.removeNotebookMetadata

def set (c : Config) (flag : Flag) (b : Bool) : Config :=
  match flag with
  | .removeEmptyCells => { c with removeEmptyCells := b }
  | .preserveOutputs => { c with preserveOutputs := b }
  | .preserveCounts => { c with preserveCounts := b }
  | .preserveNotebookMetadata => { c with preserveNotebookMetadata := b }
  | .removeNotebookMetadata => { c with removeNotebookMetadata := b }

/-- The name of the setting for the metadata of cells. -/
def cellMetadataName : String := "preserve_cell_metadata"

def Valid (c : Config) : Prop := ¬(c.preserveNotebookMetadata ∧ c.removeNotebookMetadata)

instance (c : Config) : Decidable c.Valid := inferInstanceAs (Decidable (¬_))

/-- The arguments that ask for a policy. A set without fields has none. -/
def policyArguments : MetadataPolicy → List String
  | .strip => []
  | .preserveAll => ["--preserve-cell-metadata"]
  | .preserve fields =>
    if fields.fields.isEmpty then [] else "--preserve-cell-metadata" :: fields.fields

def filterArguments (c : Config) : List String :=
  (if c.removeEmptyCells then ["--remove-empty-cells"] else []) ++
  (if c.removeNotebookMetadata then ["--remove-all-notebook-metadata"] else []) ++
  policyArguments c.cellMetadata ++
  (if c.preserveOutputs then ["--preserve-cell-outputs"] else []) ++
  (if c.preserveCounts then ["--preserve-execution-counts"] else []) ++
  (if c.preserveNotebookMetadata then ["--preserve-notebook-metadata"] else [])

def filterCommand (c : Config) : String :=
  Shell.command ("nb-clean" :: "clean" :: c.filterArguments)

def toJson (c : Config) : Json :=
  .obj ((cellMetadataName, c.cellMetadata.toJson) ::
    Flag.all.map fun f => (f.name, .bool (c.get f)))

end Config

end NotebookCleaning
