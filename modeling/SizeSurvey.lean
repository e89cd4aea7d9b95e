import SizeSurvey.CommandLine.Help
import SizeSurvey.CommandLine.Request
import SizeSurvey.CommandLine.Run
import SizeSurvey.Decimal.Binary64
import SizeSurvey.Decimal.Reading
import SizeSurvey.Decimal.Writing
import SizeSurvey.Demangle.Basic
import SizeSurvey.Demangle.Builtin
import SizeSurvey.Demangle.External
import SizeSurvey.Distribution.Histogram
import SizeSurvey.Distribution.Percentile
import SizeSurvey.Document.Demangling
import SizeSurvey.Document.File
import SizeSurvey.Document.Gate
import SizeSurvey.Document.Inventory
import SizeSurvey.Document.Kernels
import SizeSurvey.Document.Overlap
import SizeSurvey.Document.Report
import SizeSurvey.Document.Sections
import SizeSurvey.Document.Settings
import SizeSurvey.Document.Symbols
import SizeSurvey.Elf
import SizeSurvey.Elf.Basic
import SizeSurvey.Elf.Links
import SizeSurvey.Elf.Names
import SizeSurvey.Fault
import SizeSurvey.Gate.Baseline
import SizeSurvey.Gate.Files
import SizeSurvey.Gate.Threshold
import SizeSurvey.Gate.Verdict
import SizeSurvey.Inventory
import SizeSurvey.Inventory.Category
import SizeSurvey.Json.Basic
import SizeSurvey.Json.Number
import SizeSurvey.Json.Parser
import SizeSurvey.Json.Printer
import SizeSurvey.Json.Reader
import SizeSurvey.Kernel.Family
import SizeSurvey.Kernel.Summary
import SizeSurvey.Kernel.Table
import SizeSurvey.Listing.AbiAudit
import SizeSurvey.Listing.SectionTable
import SizeSurvey.Listing.SymbolTable
import SizeSurvey.NameMap
import SizeSurvey.Overlap
import SizeSurvey.Ranking.Leaders
import SizeSurvey.Ranking.Tally
import SizeSurvey.Report.Basic
import SizeSurvey.Report.Files
import SizeSurvey.Section.Basic
import SizeSurvey.Section.Summary
import SizeSurvey.Settings
import SizeSurvey.Sha256
import SizeSurvey.Size
import SizeSurvey.Survey
import SizeSurvey.Symbol.Basic
import SizeSurvey.Symbol.DynamicSummary
import SizeSurvey.Symbol.Namespace
import SizeSurvey.Symbol.Resolved
import SizeSurvey.Symbol.StaticSummary
import SizeSurvey.Text.Blank
import SizeSurvey.Text.Digit
import SizeSurvey.Text.Lowercase
import SizeSurvey.Text.Split
import SizeSurvey.Text.Utf8
import SizeSurvey.Tool.Output
import SizeSurvey.Tool.Slot
import SizeSurvey.Tool.Toolchain
import SizeSurvey.Tree.Basic
import SizeSurvey.Tree.Path
import SizeSurvey.Tree.Walk
import SizeSurvey.Proofs.Ranking.Placement
import SizeSurvey.Proofs.Ranking.Survivors
import SizeSurvey.Proofs.NameMap
import SizeSurvey.Proofs.Ranking.Slots
import SizeSurvey.Proofs.Ranking.Totals
import SizeSurvey.Proofs.Symbol.StaticPasses
import SizeSurvey.Proofs.Text.Cutting
import SizeSurvey.Proofs.Listing.Numeral
import SizeSurvey.Proofs.Listing.SymbolTable
import SizeSurvey.Proofs.Tree.Following
import SizeSurvey.Proofs.Tree.Path
import SizeSurvey.Proofs.Tree.Walk
import SizeSurvey.Proofs.Tree.Writing
import SizeSurvey.Proofs.Survey.Outcomes
import SizeSurvey.Proofs.Report.Metrics
import SizeSurvey.Proofs.Report.Documents
import SizeSurvey.Proofs.Survey.Libraries
import SizeSurvey.Proofs.Gate.Verdict
import SizeSurvey.Proofs.Text.Utf8
import SizeSurvey.Proofs.Kernel.Table
import SizeSurvey.Proofs.Distribution.Rounding
import SizeSurvey.Proofs.Distribution.Percentile
import SizeSurvey.Proofs.Kernel.Outcome
import SizeSurvey.Proofs.Kernel.Summary
import SizeSurvey.Proofs.Distribution.Histogram
import SizeSurvey.Proofs.Json.RoundTrip
import SizeSurvey.Proofs.Tree.Keeping
import SizeSurvey.Proofs.Gate.Baseline
import SizeSurvey.Proofs.CommandLine.Options
import SizeSurvey.Proofs.CommandLine.Gate
import SizeSurvey.Proofs.Overlap.Shared
import SizeSurvey.Proofs.Overlap.Positions
import SizeSurvey.Proofs.Overlap.Exactness
import SizeSurvey.Proofs.Demangle.External
import SizeSurvey.Proofs.Survey.Inquiry
import SizeSurvey.Proofs.Survey.Answers
import SizeSurvey.Proofs.Survey.Isolation
import SizeSurvey.Proofs.Tool.Slot
import SizeSurvey.Proofs.Rounding.Order
import SizeSurvey.Proofs.Rounding.Nearest
import SizeSurvey.Proofs.Rounding.Magnitude
import SizeSurvey.Proofs.Gate.Growth
import SizeSurvey.Proofs.Report.Components
import SizeSurvey.Proofs.Report.ReadBack
import SizeSurvey.Proofs.Symbol.Agreement
import SizeSurvey.Proofs.Ranking.Reordering
import SizeSurvey.Proofs.Symbol.Reordering
import SizeSurvey.Proofs.Json.Fields
import SizeSurvey.Proofs.Settings.Defaults
import SizeSurvey.Proofs.Gate.Forms
import SizeSurvey.Proofs.Text.Occurrence
import SizeSurvey.Proofs.Text.Wrapping
import SizeSurvey.Proofs.Listing.AbiAudit
import SizeSurvey.Proofs.Listing.SystemLibraries
import SizeSurvey.Proofs.Rounding.Accuracy
import SizeSurvey.Proofs.Rounding.Numeral
import SizeSurvey.Proofs.Gate.Percent
import SizeSurvey.Proofs.Rounding.Unpacking
import SizeSurvey.Proofs.Rounding.Overflow
import SizeSurvey.Proofs.Text.Capitals
import SizeSurvey.Proofs.Gate.Limit
import SizeSurvey.Proofs.Inventory.Category
import SizeSurvey.Proofs.Inventory.SharedObject
import SizeSurvey.Proofs.Listing.Messages
import SizeSurvey.Proofs.Symbol.Pairing
import SizeSurvey.Proofs.Section.Partition
import SizeSurvey.Proofs.Symbol.DynamicSummary
import SizeSurvey.Proofs.Listing.SectionTable
import SizeSurvey.Proofs.Rounding.Sums
import SizeSurvey.Proofs.Distribution.Interpolation
import SizeSurvey.Proofs.Kernel.Spread
import SizeSurvey.Proofs.Settings.Candidates
import SizeSurvey.Proofs.Tree.Listing
import SizeSurvey.Proofs.Inventory.Balance
import SizeSurvey.Proofs.Inventory.Discovery
import SizeSurvey.Proofs.Ranking.FirstSeen
import SizeSurvey.Proofs.Symbol.NamespaceTokens
import SizeSurvey.Proofs.Distribution.Indices
import SizeSurvey.Platform.Demangle.Decorated
import SizeSurvey.Platform.Demangle.HashedPath
import SizeSurvey.Platform.Demangle.Itanium
import SizeSurvey.Platform.Shell.Arithmetic
import SizeSurvey.Platform.Shell.Builtin.Names
import SizeSurvey.Platform.Shell.Builtin.Options
import SizeSurvey.Platform.Shell.Builtin.Places
import SizeSurvey.Platform.Shell.Builtin.Processes
import SizeSurvey.Platform.Shell.Builtin.Table
import SizeSurvey.Platform.Shell.Builtin.Variables
import SizeSurvey.Platform.Shell.Command
import SizeSurvey.Platform.Shell.Evaluation
import SizeSurvey.Platform.Shell.Expansion
import SizeSurvey.Platform.Shell.Format
import SizeSurvey.Platform.Shell.Launch
import SizeSurvey.Platform.Shell.Machine
import SizeSurvey.Platform.Shell.Number
import SizeSurvey.Platform.Shell.Pattern
import SizeSurvey.Platform.Shell.Program
import SizeSurvey.Platform.Shell.Reader
import SizeSurvey.Platform.Shell.Redirecting
import SizeSurvey.Platform.Shell.Regex
import SizeSurvey.Platform.Shell.Running
import SizeSurvey.Platform.Shell.Session
import SizeSurvey.Platform.Shell.Signal
import SizeSurvey.Platform.Shell.Surroundings
import SizeSurvey.Platform.Shell.Test
import SizeSurvey.Platform.Shell.Token
import SizeSurvey.Platform.Shell.Utility.Copy
import SizeSurvey.Platform.Shell.Utility.Count
import SizeSurvey.Platform.Shell.Utility.Edit
import SizeSurvey.Platform.Shell.Utility.Files
import SizeSurvey.Platform.Shell.Utility.Lines
import SizeSurvey.Platform.Shell.Utility.Run
import SizeSurvey.Platform.Shell.Utility.Table
import SizeSurvey.Platform.Shell.Utility.Translate
import SizeSurvey.Platform.System
import SizeSurvey.Main
