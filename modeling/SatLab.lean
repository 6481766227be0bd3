import SatLab.Benchmark.Campaign
import SatLab.Benchmark.FolderDocument
import SatLab.Benchmark.FolderRecord
import SatLab.Benchmark.FolderRun
import SatLab.Benchmark.FolderStatistics
import SatLab.Benchmark.ForeignRecord
import SatLab.Benchmark.Instances
import SatLab.Benchmark.Note
import SatLab.Benchmark.Overview
import SatLab.Benchmark.Reached
import SatLab.Benchmark.Statistics
import SatLab.Benchmark.Trial
import SatLab.Benchmark.Workbench
import SatLab.Braces.Parser
import SatLab.Braces.Printer
import SatLab.Chart.Bars
import SatLab.Chart.Gallery
import SatLab.Chart.Engine
import SatLab.Chart.Plot
import SatLab.CommandLine.Argument
import SatLab.CommandLine.Options
import SatLab.CommandLine.Run
import SatLab.Dimacs.Reader
import SatLab.Document.Access
import SatLab.Document.Arithmetic
import SatLab.Document.Basic
import SatLab.Document.Misuse
import SatLab.Document.Numeral
import SatLab.Document.QuotedText
import SatLab.Document.Reader
import SatLab.Document.Shown
import SatLab.Document.Token
import SatLab.Document.Writer
import SatLab.Formula.Basic
import SatLab.Formula.Satisfaction
import SatLab.Formula.Simplify
import SatLab.Main
import SatLab.Number.Binary64.Arithmetic
import SatLab.Number.Binary64.Basic
import SatLab.Number.Fixed
import SatLab.Number.Mean
import SatLab.Number.Shortest
import SatLab.Proofs.Benchmark.Accounts
import SatLab.Proofs.Benchmark.Backup
import SatLab.Proofs.Benchmark.CampaignRun
import SatLab.Proofs.Benchmark.FolderHistory
import SatLab.Proofs.Benchmark.FolderRun
import SatLab.Proofs.Benchmark.FolderTrace
import SatLab.Proofs.Benchmark.LedgerRecords
import SatLab.Proofs.Benchmark.Moderate
import SatLab.Proofs.Benchmark.Restoring
import SatLab.Proofs.Benchmark.ResultTable
import SatLab.Proofs.Benchmark.Resumption
import SatLab.Proofs.Benchmark.Standing
import SatLab.Proofs.Benchmark.TableReading
import SatLab.Proofs.Benchmark.Tally
import SatLab.Proofs.Benchmark.TimeoutLimit
import SatLab.Proofs.Benchmark.Upkeep
import SatLab.Proofs.Benchmark.UpkeepRun
import SatLab.Proofs.Braces.Faults
import SatLab.Proofs.Braces.Grammar
import SatLab.Proofs.Braces.RoundTrip
import SatLab.Proofs.CommandLine.Decision
import SatLab.Proofs.CommandLine.Endings
import SatLab.Proofs.CommandLine.Reading
import SatLab.Proofs.CommandLine.Report
import SatLab.Proofs.Dimacs.Layout
import SatLab.Proofs.Dimacs.Reading
import SatLab.Proofs.Document.Numeral
import SatLab.Proofs.Document.QuotedText
import SatLab.Proofs.Document.RoundTrip
import SatLab.Proofs.Fallible
import SatLab.Proofs.Formula.OpenVariables
import SatLab.Proofs.Formula.Reordering
import SatLab.Proofs.Formula.Residual
import SatLab.Proofs.Formula.Truth
import SatLab.Proofs.Number.Rounding
import SatLab.Proofs.Number.Shortest
import SatLab.Proofs.Search.Assumptions
import SatLab.Proofs.Search.Backtracking
import SatLab.Proofs.Search.CallDepth
import SatLab.Proofs.Search.Checks
import SatLab.Proofs.Search.Confluence
import SatLab.Proofs.Search.Counting
import SatLab.Proofs.Search.Decision
import SatLab.Proofs.Search.FixedPoint
import SatLab.Proofs.Search.InsertionOrder
import SatLab.Proofs.Search.Propagation
import SatLab.Proofs.Search.Renaming
import SatLab.Proofs.Search.Rereading
import SatLab.Proofs.Search.Safeguards
import SatLab.Proofs.Search.TableOrder
import SatLab.Proofs.Search.TruthTable
import SatLab.Proofs.Search.Verdict
import SatLab.Proofs.Sheet.Column
import SatLab.Proofs.Sheet.Reading
import SatLab.Proofs.Sheet.Standard
import SatLab.Proofs.Storage.FileTree
import SatLab.Proofs.Storage.FreePath
import SatLab.Proofs.Text.Lines
import SatLab.Proofs.Text.Separated
import SatLab.Proofs.Text.Utf8
import SatLab.Search.Backtracking
import SatLab.Search.Counters
import SatLab.Search.Propagation
import SatLab.Search.Session
import SatLab.Search.Solver
import SatLab.Search.TruthTable
import SatLab.Sheet.Cell
import SatLab.Sheet.Column
import SatLab.Sheet.Numeral
import SatLab.Sheet.Reader
import SatLab.Sheet.Results
import SatLab.Sheet.RowNumber
import SatLab.Sheet.Writer
import SatLab.Sheet.Engine
import SatLab.Sheet.Table
import SatLab.Storage.FileTree
import SatLab.Storage.FormulaFile
import SatLab.Storage.FreePath
import SatLab.Storage.PathName
import SatLab.Text.Blank
import SatLab.Text.DecimalDigit
import SatLab.Text.Hexadecimal
import SatLab.Text.Layout
import SatLab.Text.Lines
import SatLab.Text.Printable
import SatLab.Text.Quoted
import SatLab.Text.UpperCase
import SatLab.Text.Utf8
import SatLab.Proofs.Storage.NumberedPath
import SatLab.Proofs.Benchmark.NewTables
import SatLab.Proofs.Dimacs.WellFormed
import SatLab.Proofs.Braces.ResultText
import SatLab.Proofs.Sheet.Cells
import SatLab.Proofs.Sheet.Engine
import SatLab.Proofs.Sheet.Typing
import SatLab.Proofs.Chart.Gallery
