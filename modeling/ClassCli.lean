import ClassCli.Main
import ClassCli.Workspace
import ClassCli.Proofs.Synthesis.SetupLevels
import ClassCli.Proofs.Code.Running
import ClassCli.Proofs.Synthesis.EntryFile
import ClassCli.Proofs.Code.Lookup
import ClassCli.Proofs.Synthesis.Agreement
import ClassCli.Proofs.Synthesis.Dispatch
import ClassCli.Proofs.Entries
import ClassCli.Proofs.Interface.Literals
import ClassCli.Proofs.Interface.Reading
import ClassCli.Proofs.Interface.RoundTrip
import ClassCli.Proofs.Docstring.Agreement
import ClassCli.Proofs.Outline.Places
import ClassCli.Proofs.Extraction.Sources
import ClassCli.Proofs.Extraction.ScopeChain
import ClassCli.Proofs.Extraction.Shadowing
import ClassCli.Proofs.FileTree
import ClassCli.Proofs.Interface.Kept
import ClassCli.Proofs.Json.Held
import ClassCli.Proofs.Synthesis.FunctionNames
import ClassCli.Proofs.Synthesis.DispatchKeys
import ClassCli.Proofs.Synthesis.OptionStrings
import ClassCli.Proofs.Code.Indentation
import ClassCli.Proofs.Synthesis.FileLayout
import ClassCli.Proofs.Workflow.Files
import ClassCli.Proofs.Workflow.Kept
import ClassCli.Proofs.Workflow.TwoPasses
import ClassCli.Extraction.Extractor
import ClassCli.Proofs.Extraction.Strictness
import ClassCli.Proofs.Extraction.Signature
import ClassCli.Proofs.Synthesis.MethodCalls
import ClassCli.Proofs.Workflow.Untouched
import ClassCli.Proofs.FileTree.Changes
import ClassCli.Proofs.Workflow.Directories
import ClassCli.Proofs.Workflow.Gate
import ClassCli.Proofs.Extraction.WrittenClasses
import ClassCli.Proofs.Extraction.WrittenNames
import ClassCli.Proofs.Synthesis.LegalFiles
import ClassCli.Proofs.Synthesis.StringDefaults
import ClassCli.Proofs.Extraction.LineEnds
import ClassCli.Proofs.Docstring.FlushEntries
import ClassCli.Proofs.Extraction.HelpTexts
import ClassCli.Proofs.Synthesis.HygienicFiles
import ClassCli.Proofs.Outline.Nesting
import ClassCli.Proofs.Docstring.SummaryLine
import ClassCli.Proofs.Docstring.TypedResults
import ClassCli.Proofs.Outline.TabStops
import ClassCli.Proofs.Extraction.MarkedMethods
import ClassCli.Proofs.Marker.Lookup
import ClassCli.Proofs.Outline.WrittenTypes
import ClassCli.Proofs.Synthesis.ShownTexts
import ClassCli.Proofs.Synthesis.AbsentValues
import ClassCli.Proofs.Code.Splicing
import ClassCli.Proofs.Synthesis.ImportNames
import ClassCli.Proofs.Synthesis.RefusedNames
import ClassCli.Proofs.Outline.WrittenLiterals
import ClassCli.Proofs.CommandLine.InputFiles
import ClassCli.Proofs.Outline.NestedStatements
import ClassCli.Proofs.Outline.ExactIntegers
