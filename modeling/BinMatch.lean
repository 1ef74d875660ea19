import BinMatch.AddressMap
import BinMatch.Catalog
import BinMatch.CommandLine.Arguments
import BinMatch.CommandLine.Console
import BinMatch.CommandLine.Execution
import BinMatch.CommandLine.Run
import BinMatch.CommandLine.Switch
import BinMatch.Comparison
import BinMatch.Comparison.Sweep
import BinMatch.Config
import BinMatch.DebugInfo
import BinMatch.Diff.Alignment
import BinMatch.Diff.Block
import BinMatch.Diff.Hunk
import BinMatch.Diff.TextDiff
import BinMatch.Disk
import BinMatch.Error
import BinMatch.Failure
import BinMatch.Listing
import BinMatch.Log
import BinMatch.Main
import BinMatch.Numeric.Binary64
import BinMatch.Numeric.Decimal
import BinMatch.Path
import BinMatch.Proofs.AddressMap
import BinMatch.Proofs.Catalog
import BinMatch.Proofs.CommandLine.Breakdown
import BinMatch.Proofs.CommandLine.Execution
import BinMatch.Proofs.CommandLine.Run
import BinMatch.Proofs.Comparison.DeclaredSize
import BinMatch.Proofs.Comparison.FirstFailure
import BinMatch.Proofs.Comparison.Lines
import BinMatch.Proofs.Comparison.Match
import BinMatch.Proofs.Comparison.Outcome
import BinMatch.Proofs.Comparison.Sweep
import BinMatch.Proofs.Comparison.Truncation
import BinMatch.Proofs.Config
import BinMatch.Proofs.Diff.Alignment
import BinMatch.Proofs.Diff.Change
import BinMatch.Proofs.Diff.Frequent
import BinMatch.Proofs.Diff.Hunk
import BinMatch.Proofs.Diff.Patch
import BinMatch.Proofs.Diff.Ratio
import BinMatch.Proofs.Diff.TextDiff
import BinMatch.Proofs.Disk
import BinMatch.Proofs.Listing.Agreement
import BinMatch.Proofs.Listing.Block
import BinMatch.Proofs.Listing.Repeated
import BinMatch.Proofs.Log
import BinMatch.Proofs.Numeric.Arithmetic
import BinMatch.Proofs.Numeric.Error
import BinMatch.Proofs.Numeric.Rounding
import BinMatch.Proofs.Refresh
import BinMatch.Proofs.Refresh.Writes
import BinMatch.Proofs.Report.Aggregate
import BinMatch.Proofs.Report.Index
import BinMatch.Proofs.Report.Mean
import BinMatch.Proofs.Report.Output
import BinMatch.Proofs.Report.SourcePath
import BinMatch.Proofs.Report.Table
import BinMatch.Proofs.Report.Tree
import BinMatch.Proofs.Report.Unknown
import BinMatch.Proofs.Symbol.Extraction
import BinMatch.Proofs.Symbol.Order
import BinMatch.Proofs.Text.Entity
import BinMatch.Proofs.Text.Hex
import BinMatch.Proofs.Text.Order
import BinMatch.Proofs.Text.Percent
import BinMatch.Proofs.Text.Pieces
import BinMatch.Proofs.Text.Scanner
import BinMatch.Proofs.Thunk
import BinMatch.Proofs.Watch.Loop
import BinMatch.Proofs.Watch.Session
import BinMatch.Proofs.Watch.Startup
import BinMatch.Proofs.X86.Call
import BinMatch.Proofs.X86.Composition
import BinMatch.Proofs.X86.Conversion
import BinMatch.Proofs.X86.Cut
import BinMatch.Proofs.X86.Disassembly
import BinMatch.Proofs.X86.Distinct
import BinMatch.Proofs.X86.OneLine
import BinMatch.Proofs.X86.Redaction
import BinMatch.Proofs.X86.Relocation
import BinMatch.Proofs.X86.Rendering
import BinMatch.Refresh
import BinMatch.Report.Index
import BinMatch.Report.Output
import BinMatch.Report.Tree
import BinMatch.Settings
import BinMatch.Settings.Dotenv
import BinMatch.Side
import BinMatch.Symbol.Extraction
import BinMatch.Text.Notation
import BinMatch.Text.Printable
import BinMatch.Text.Scanner
import BinMatch.Thunk
import BinMatch.Toml.Document
import BinMatch.Toml.Lexeme
import BinMatch.Toml.Value
import BinMatch.Watch.Session
import BinMatch.X86.Disassembly
import BinMatch.X86.Encoding
import BinMatch.X86.Instruction
import BinMatch.X86.Line
import BinMatch.X86.Opcode
import BinMatch.X86.OpcodeTable
import BinMatch.X86.Prefix
import BinMatch.X86.Reader
import BinMatch.Proofs.Report.Insertion
