import Mips32.Text.Basic
import Mips32.Text.CodePoint
import Mips32.Text.Lines
import Mips32.Text.CodeRange
import Mips32.Text.CaseTable
import Mips32.Text.PrintTable
import Mips32.Text.DirectionTable
import Mips32.Text.DecimalDigit
import Mips32.Text.Case
import Mips32.Text.Latin
import Mips32.Text.Quoted
import Mips32.Text.Utf8
import Mips32.Text.Percent
import Mips32.Text.Punycode
import Mips32.Numeral.Digits
import Mips32.Numeral.Literal
import Mips32.Binary64.Basic
import Mips32.Binary64.Shortest
import Mips32.Isa.Register
import Mips32.Isa.Mnemonic
import Mips32.Isa.Instruction
import Mips32.Isa.Word
import Mips32.Fault
import Mips32.Source.Line
import Mips32.Source.Operand
import Mips32.Source.Statement
import Mips32.Json.Basic
import Mips32.Json.Display
import Mips32.Address
import Mips32.SymbolTable
import Mips32.Program.Basic
import Mips32.Program.Link
import Mips32.Program.Symbols
import Mips32.Program.Words
import Mips32.Listing
import Mips32.Event
import Mips32.Program.Log
import Mips32.Program.Passes
import Mips32.Report
import Mips32.Session
import Mips32.Json.Reader
import Mips32.Json.Encoding
import Mips32.Json.Printer
import Mips32.FileSystem
import Mips32.CommandLine.Flag
import Mips32.CommandLine.Options
import Mips32.CommandLine.Script
import Mips32.CommandLine.Run
import Mips32.Service.Framework
import Mips32.Service.Handler
import Mips32.Service.HostName
import Mips32.Service.NumericHost
import Mips32.Service.Authority
import Mips32.Service.Reference
import Mips32.Service.Target
import Mips32.Service.Http
import Mips32.Service.Respond
import Mips32.Main
import Mips32.Proofs.Outcome
import Mips32.Proofs.FileSystem
import Mips32.Proofs.Path
import Mips32.Proofs.Program.Layout
import Mips32.Proofs.Program.Agreement
import Mips32.Proofs.Program.Branch
import Mips32.Proofs.Program.Jump
import Mips32.Proofs.Source.Reads
import Mips32.Proofs.Isa.Fields
import Mips32.Proofs.Text.Runs
import Mips32.Proofs.Numeral.Spelling
import Mips32.Proofs.Source.Grammar
import Mips32.Proofs.Source.WellFormed
import Mips32.Proofs.Source.Label
import Mips32.Proofs.Source.Start
import Mips32.Proofs.Source.Spelling
import Mips32.Proofs.Source.BaseRegister
import Mips32.Proofs.Program.Encoding
import Mips32.Proofs.Program.Verdict
import Mips32.Proofs.Program.NearBranch
import Mips32.Proofs.Program.Relocation
import Mips32.Proofs.Report
import Mips32.Proofs.Program.Contribution
import Mips32.Proofs.Program.Passes
import Mips32.Proofs.Session
import Mips32.Proofs.Source.Printing
import Mips32.Proofs.Program.Disassembly
import Mips32.Proofs.CommandLine.Options
import Mips32.Proofs.CommandLine.Console
import Mips32.Proofs.CommandLine.Report
import Mips32.Proofs.CommandLine.Effect
import Mips32.Proofs.Listing
import Mips32.Proofs.CommandLine.SourceFile
import Mips32.Proofs.CommandLine.Labels
import Mips32.Proofs.Program.Significant
import Mips32.Proofs.Report.Editing
import Mips32.Proofs.Numeral.Notation
import Mips32.Proofs.Numeral.Marked
import Mips32.Proofs.Report.Notation
import Mips32.Proofs.Listing.Columns
import Mips32.Proofs.Address
import Mips32.Proofs.Service.Resources
import Mips32.Proofs.Service.Attachment
import Mips32.Proofs.Program.Extension
import Mips32.Proofs.Program.InlineLabel
import Mips32.Proofs.Program.Renaming
import Mips32.Proofs.Program.Rejection
import Mips32.Proofs.Program.Spacing
