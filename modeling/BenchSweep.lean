import BenchSweep.Main
import BenchSweep.Proofs.Sweep.Plan
import BenchSweep.Proofs.Sweep.Progression
import BenchSweep.Proofs.Sweep.Calls
import BenchSweep.Proofs.Files.Component
import BenchSweep.Proofs.Files.Walk
import BenchSweep.Proofs.Files.Effects
import BenchSweep.Proofs.Runner.Script
import BenchSweep.Proofs.Sweep.Turns
import BenchSweep.Proofs.Sweep.Places
import BenchSweep.Proofs.Sweep.Contents
import BenchSweep.Proofs.Sweep.Stops
import BenchSweep.Proofs.CommandLine.Visits
import BenchSweep.Proofs.Text.Lines
import BenchSweep.Proofs.Text.Trim
import BenchSweep.Proofs.Ini.Grammar
import BenchSweep.Proofs.Ini.Step
import BenchSweep.Proofs.Ini.Verdict
import BenchSweep.Proofs.Table
import BenchSweep.Proofs.Ini.Writing
import BenchSweep.Proofs.Ini.RoundTrip
import BenchSweep.Proofs.CommandLine.Status
import BenchSweep.Proofs.Files.Resolve
import BenchSweep.Proofs.Sweep.Early
import BenchSweep.Proofs.Files.Replay
import BenchSweep.Proofs.Sweep.Again
import BenchSweep.Proofs.Runner.Uses
import BenchSweep.Proofs.CommandLine.Streams
import BenchSweep.Proofs.Text.Numeral
import BenchSweep.Proofs.Ini.Values
import BenchSweep.Proofs.Ini.TimeLimit
import BenchSweep.Proofs.Runner.Annotations
import BenchSweep.Proofs.Sweep.Kept
import BenchSweep.Proofs.Files.Alike
import BenchSweep.Proofs.Sweep.Beside
import BenchSweep.Proofs.Suite.Plotters
import BenchSweep.Proofs.Suite.Order
import BenchSweep.Proofs.Text.Words
import BenchSweep.Proofs.Ini.Layout
import BenchSweep.Proofs.Ini.Arguments
import BenchSweep.Proofs.Ini.Blocks
import BenchSweep.Proofs.Ini.Sections
import BenchSweep.Proofs.Ini.Indentation
import BenchSweep.Proofs.Sweep.Directories
import BenchSweep.Proofs.Sweep.Summary
import BenchSweep.Proofs.Settings.Scan
import BenchSweep.Proofs.Settings.Lines
import BenchSweep.Proofs.Settings.Document
import BenchSweep.Proofs.CommandLine.Flags
import BenchSweep.Proofs.Runner.Wording
import BenchSweep.Proofs.Sweep.Announcements
import BenchSweep.Proofs.Report.Calendar
import BenchSweep.Proofs.Report.Timestamps
import BenchSweep.Proofs.Json.Reading
import BenchSweep.Proofs.Report.Lossless
import BenchSweep.Proofs.Sweep.LogPaths
