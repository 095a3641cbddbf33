import BenchSettings.Check.Configuration
import BenchSettings.Check.Document
import BenchSettings.Main
import BenchSettings.Session
import BenchSettings.Proofs.Loading.Warnings
import BenchSettings.Proofs.Loading.Invariants
import BenchSettings.Proofs.Fill.Tiling
import BenchSettings.Proofs.Report.Reload
import BenchSettings.Proofs.Report.Agreement
import BenchSettings.Proofs.Command.Layers
import BenchSettings.Proofs.Environment.Sessions
import BenchSettings.Proofs.Loading.Repair
import BenchSettings.Proofs.Report.Table
import BenchSettings.Proofs.Loading.Frame
import BenchSettings.Proofs.EnvFile.Reload
import BenchSettings.Proofs.Command.Unrelated
import BenchSettings.Proofs.Setting.Blanks
import BenchSettings.Proofs.Number.Doubles
import BenchSettings.Proofs.Number.Layout
import BenchSettings.Proofs.Number.Shown
import BenchSettings.Proofs.Setting.NumberText
import BenchSettings.Proofs.Json.Denoted
import BenchSettings.Proofs.EnvFile.Numbers
import BenchSettings.Proofs.Fill.Grammar
import BenchSettings.Proofs.Fill.Inverse
import BenchSettings.Proofs.Setting.Lenient
import BenchSettings.Proofs.EnvFile.Faults
import BenchSettings.Proofs.Json.Order
import BenchSettings.Proofs.Check.Candidates
import BenchSettings.Proofs.Check.Reports
import BenchSettings.Proofs.Fill.Views
import BenchSettings.Proofs.Command.Diagnostics
import BenchSettings.Proofs.Report.Columns
import BenchSettings.Proofs.EnvFile.Unquoted
