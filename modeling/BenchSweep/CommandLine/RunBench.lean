import BenchSweep.CommandLine.Response
import BenchSweep.Report

/-!
# The command `runbench`

Sweep one benchmark: `runbench DIR NAME ITERS`, with a settings file, allocators and
a highest thread count to choose.

* `RunBench.run` : the answer to an argument vector in a file tree.
-/

namespace BenchSweep.CommandLine.RunBench

/-- The name of the command. -/
def command : String := "runbench"

/-- The operands and options of the command. -/
def grammar : Grammar where
  operands := [.path, .text, .count]
  options :=
    [("settings", .single .path), ("allocator", .repeated .text),
      ("max-threads", .single .count), ("json", .flag)]

/-- What the command is asked to do. -/
structure Request where
  directory : Path
  benchmark : String
  iterations : Nat
  settings : Option Path
  allocators : List String
  maxThreads : Option Nat
  json : Bool
  deriving DecidableEq, Repr

/-- The request that matched arguments make. -/
def Request.ofMatches (m : Matches) : Request where
  directory := ⟨m.operand 0⟩
  benchmark := m.operand 1
  iterations := (count? (m.operand 2)).getD 0
  settings := (m.value? "settings").map Path.mk
  allocators := m.values "allocator"
  maxThreads := m.count? "max-threads"
  json := m.has "json"

/-- Settings with what the request chooses itself. -/
def Request.override (r : Request) (s : Settings) : Settings where
  allocators := if r.allocators = [] then s.allocators else r.allocators
  maxThreads := r.maxThreads.getD s.maxThreads

/-- The settings of a request. -/
def Request.loadSettings (r : Request) (host : Host) (tree : Tree) : Except Failure Settings :=
  match r.settings with
  | none => .ok (r.override .standard)
  | some path => (Settings.load host.complaint tree path).map r.override

/-- The sweep of a request under some settings. -/
def Request.sweep (r : Request) (settings : Settings) : Sweep :=
  .ofSettings settings r.directory r.benchmark r.iterations

/-- The texts that a request reads. -/
def Request.texts (r : Request) : List Path :=
  r.settings.toList ++ [r.directory.join Recipe.fileName]

/-- The programs that a request starts under some settings. -/
def Request.programs (r : Request) (settings : Settings) : List Path :=
  settings.allocators.map (r.sweep settings).program

/-- The stream for progress: a JSON report has the standard output for itself. -/
def Request.progressStream (r : Request) : Stream := if r.json then .err else .out

/-- What is printed of the progress of a sweep. -/
def progressOutput (colors : Bool) (stream : Stream) (s : Sweep) (progress : List Progress) :
    Output :=
  .line stream (Sweep.banner colors s.directory s.iterations) ++
    .concat (progress.filterMap fun p => (p.line? colors).map (Output.line stream))

/-- What is printed of a report. -/
def reportOutput (colors json : Bool) (r : Report) : Output :=
  if json then .text .out r.json else .line .out (r.summary colors)

/-- Carry out a request. -/
def perform (host : Host) (colors : Bool) (span : Span) (r : Request) (tree : Tree) : Exit :=
  match r.loadSettings host tree with
  | .error failure => ⟨1, .line .err failure.message, tree⟩
  | .ok settings =>
    let sweep := r.sweep settings
    let ran := sweep.runConfigured (Runner.processes host) tree ()
    let shown := progressOutput colors r.progressStream sweep ran.progress
    match ran.verdict with
    | .error failure => ⟨1, shown ++ .line .err failure.message, ran.tree⟩
    | .ok tally =>
      { code := exitCode tally.failures
        output := shown ++ reportOutput colors r.json (.ofTally sweep tally span)
        tree := ran.tree }

/-- The answer to an argument vector. -/
def run (host : Host) (colors : Bool) (span : Span) (args : List String) (tree : Tree) :
    Response :=
  match grammar.scan args with
  | .error stop => .ofStop command tree stop
  | .ok found => .done (perform host colors span (.ofMatches found) tree)

end BenchSweep.CommandLine.RunBench
