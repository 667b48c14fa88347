import NotebookCleaning.Config.Reader
import NotebookCleaning.Keywords
import NotebookCleaning.Main
import NotebookCleaning.Session
import NotebookCleaning.Proofs.DistinctKeys
import NotebookCleaning.Proofs.CleanedCell
import NotebookCleaning.Proofs.CleanedDocument
import NotebookCleaning.Proofs.Soundness
import NotebookCleaning.Proofs.Durable
import NotebookCleaning.Proofs.Completeness
import NotebookCleaning.Proofs.Accounting
import NotebookCleaning.Proofs.Reading
import NotebookCleaning.Proofs.Printing
import NotebookCleaning.Proofs.Idempotence
import NotebookCleaning.Proofs.Composition
import NotebookCleaning.Proofs.Numeral
import NotebookCleaning.Proofs.QuotedText
import NotebookCleaning.Proofs.RoundTrip
import NotebookCleaning.Proofs.CleanedText
import NotebookCleaning.Proofs.Arguments
import NotebookCleaning.Proofs.FilterArguments
import NotebookCleaning.Proofs.Outline
import NotebookCleaning.Proofs.CleanedFiles
import NotebookCleaning.Proofs.SettledFiles
import NotebookCleaning.Proofs.KeywordCalls
import NotebookCleaning.Proofs.Frame
import NotebookCleaning.Proofs.Spelling
import NotebookCleaning.Proofs.Verbatim
import NotebookCleaning.Proofs.CheckReport
import NotebookCleaning.Proofs.Laxity
import NotebookCleaning.Proofs.KeyOrder
import NotebookCleaning.Proofs.RewrittenFiles
import NotebookCleaning.Proofs.AttributesFile
import NotebookCleaning.Proofs.WrittenFile
import NotebookCleaning.Proofs.AttributesHistory
import NotebookCleaning.Proofs.HoldingDirectory
import NotebookCleaning.Proofs.CellByCell
import NotebookCleaning.Proofs.ShellWords
import NotebookCleaning.Proofs.SourceLines
import NotebookCleaning.Proofs.FindingMessages
import NotebookCleaning.Proofs.ReachedDocuments
import NotebookCleaning.Proofs.RetriedFilter
import NotebookCleaning.Proofs.PathOrder
import NotebookCleaning.Proofs.ResolvedPaths
import NotebookCleaning.Proofs.PrintedLines
