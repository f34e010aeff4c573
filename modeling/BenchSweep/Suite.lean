import BenchSweep.Sweep

/-!
# Suites

A suite sweeps several benchmarks below one directory, one after the other, and has
each plotted by a program of the host.

* `Suite.run` : run a suite; it goes on whatever fails.
* `Suite.total` : the failures and plotter statuses of all benchmarks together.
-/

namespace BenchSweep

/-- What to run in a suite. -/
structure Suite where
  root : Path
  benchmarks : List String
  iterations : Nat
  settings : Settings
  plotter : Option Path
  deriving DecidableEq, Repr

namespace Suite

/-- The benchmarks that a suite runs if none are named. -/
def standardBenchmarks : List String :=
  ["cache-scratch", "cache-thrash", "threadtest", "larson", "linux-scalability", "phong"]

/-- The plotter that stands below the root of a suite. -/
def plotterName : String := "graphbench.pl"

/-- The suite of a directory in which nothing is chosen. -/
def standard (root : Path) : Suite where
  root
  benchmarks := standardBenchmarks
  iterations := 1
  settings := .standard
  plotter := none

/-- The plotter of a suite. -/
def plotterPath (s : Suite) : Path := s.plotter.getD (s.root.join plotterName)

/-- The directory of a benchmark. -/
def directory (s : Suite) (benchmark : String) : Path := s.root.join benchmark

/-- The sweep of a benchmark. -/
def sweep (s : Suite) (benchmark : String) : Sweep :=
  .ofSettings s.settings (s.directory benchmark) benchmark s.iterations

/-- What became of a benchmark: its failed trials, or 1 if it could not be swept, and
the status of the plotter. -/
structure Row where
  benchmark : String
  sweepStatus : Nat
  plotStatus : Nat
  deriving DecidableEq, Repr

/-- What a suite tells while it runs; `printed` is what the plotter writes itself. -/
inductive Notice
  | benchmark (name : String)
  | progress (p : Progress)
  | sweepFailed (benchmark : String) (failure : Failure)
  | plotted (benchmark : String) (status : Nat) (printed : List (Stream × List UInt8))
  deriving DecidableEq, Repr

/-! ## Plotting -/

/-- A plotter that ran: its status, what it wrote, and the file tree after it. -/
structure Plot where
  status : Nat
  printed : List (Stream × List UInt8)
  tree : Tree

/-- The status of a plotter by its wait status: its exit code, or 1. -/
def plotStatus (status : WaitStatus) : Nat := if status.hasExited then status.code else 1

/-- What the plotter is called with for a benchmark. -/
def plotterArgs (s : Suite) (benchmark : String) : List String :=
  [(s.directory benchmark).text, benchmark]

/-- Have a benchmark plotted; a plotter that cannot be started counts as 1.  It is awaited to its
end without any limit, and it writes to the streams of the suite itself. -/
def plot (s : Suite) (host : Host) (tree : Tree) (benchmark : String) : Plot :=
  match host.start tree s.plotterPath (s.plotterArgs benchmark) with
  | .error _ => ⟨1, [], tree⟩
  | .ok run =>
    { status := plotStatus run.ending.status
      printed := run.effects.filterMap Effect.printed?
      tree := run.effects.foldl Effect.changed tree }

/-! ## Running -/

variable {σ : Type}

/-- A suite that was run. -/
structure Ran (σ : Type) where
  rows : List Row
  notices : List Notice
  tree : Tree
  state : σ

/-- The status of a sweep: its failed trials, or 1 if it did not go through. -/
def sweepStatus : Except Failure Tally → Nat
  | .ok tally => tally.failures
  | .error _ => 1

/-- What a suite tells of a sweep that did not go through. -/
def failureNotice (benchmark : String) : Except Failure Tally → List Notice
  | .ok _ => []
  | .error failure => [.sweepFailed benchmark failure]

/-- Sweep and plot one benchmark. -/
def runOne (s : Suite) (host : Host) (runner : Runner σ) (tree : Tree) (state : σ)
    (benchmark : String) : Row × List Notice × Tree × σ :=
  let swept := (s.sweep benchmark).runConfigured runner tree state
  let plotted := s.plot host swept.tree benchmark
  (⟨benchmark, sweepStatus swept.verdict, plotted.status⟩,
    .benchmark benchmark :: swept.progress.map .progress ++
      failureNotice benchmark swept.verdict ++
      [.plotted benchmark plotted.status plotted.printed],
    plotted.tree, swept.state)

/-- Run benchmarks in order. -/
def runAll (s : Suite) (host : Host) (runner : Runner σ) (tree : Tree) (state : σ) :
    List String → Ran σ
  | [] => ⟨[], [], tree, state⟩
  | benchmark :: rest =>
    let (row, notices, tree, state) := s.runOne host runner tree state benchmark
    let after := runAll s host runner tree state rest
    { after with rows := row :: after.rows, notices := notices ++ after.notices }

/-- Run a suite. -/
def run (s : Suite) (host : Host) (runner : Runner σ) (tree : Tree) (state : σ) : Ran σ :=
  s.runAll host runner tree state s.benchmarks

/-- All failures and plotter statuses together, up to the cap. -/
def total (rows : List Row) : Nat :=
  rows.foldl (fun n row => addCapped (addCapped n row.sweepStatus) row.plotStatus) 0

end Suite

end BenchSweep
