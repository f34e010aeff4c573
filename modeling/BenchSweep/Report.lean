import BenchSweep.Instant
import BenchSweep.Json
import BenchSweep.Style
import BenchSweep.Sweep

/-!
# Reports

What a sweep that went through is summed up in.

* `Report.summary` : one line for a user.
* `Report.json` : a JSON object for a program.
-/

namespace BenchSweep

/-- The clock readings at the start and at the end of a sweep. -/
structure Span where
  started : Instant
  finished : Instant
  deriving DecidableEq, Repr

/-- The result of a sweep. -/
structure Report where
  benchmark : String
  directory : Path
  iterations : Nat
  allocators : List String
  maxThreads : Nat
  span : Span
  logs : List Path
  failures : Nat
  deriving DecidableEq, Repr

namespace Report

/-- The report on a sweep that went through. -/
def ofTally (s : Sweep) (tally : Tally) (span : Span) : Report where
  benchmark := s.benchmark
  directory := s.directory
  iterations := s.iterations
  allocators := s.allocators
  maxThreads := s.maxThreads
  span
  logs := tally.logs
  failures := tally.failures

/-- The number of trials of the sweep, multiplied out in 64 bits. -/
def trials (r : Report) : Nat :=
  (UInt64.ofNat r.allocators.length * UInt64.ofNat r.maxThreads * UInt64.ofNat r.iterations).toNat

/-- The whole seconds that the sweep took. -/
def elapsed (r : Report) : Int := r.span.started.secondsUntil r.span.finished

/-- One line that sums up the sweep. -/
def summary (colors : Bool) (r : Report) : String :=
  Style.paint (if r.failures = 0 then .success else .failure) colors
    (r.benchmark ++ ": " ++ Text.decimalText r.failures ++ " of " ++
      Text.decimalText r.trials ++ " trials failed in " ++ toString r.elapsed ++ "s")

/-- The fields of the report. -/
def object (r : Report) : Json.Object :=
  [("benchmark", .string r.benchmark),
    ("benchmark_dir", .string r.directory.text),
    ("iterations", .number r.iterations),
    ("allocators", .strings r.allocators),
    ("max_threads", .number r.maxThreads),
    ("started_at", .string r.span.started.rfc3339),
    ("finished_at", .string r.span.finished.rfc3339),
    ("result_files", .strings (r.logs.map Path.text)),
    ("failures", .number r.failures)]

/-- The report as JSON, with a line end behind it. -/
def json (r : Report) : String := String.ofList (Json.print r.object ++ ['\n'])

end Report

end BenchSweep
