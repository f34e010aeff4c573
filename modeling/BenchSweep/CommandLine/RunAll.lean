import BenchSweep.CommandLine.Response
import BenchSweep.Suite

/-!
# The command `runall`

Run a suite: `runall ROOT`, with an iteration count, benchmarks, a settings file and
a plotter to choose.

* `RunAll.run` : the answer to an argument vector in a file tree.
-/

namespace BenchSweep.CommandLine.RunAll

/-- The name of the command. -/
def command : String := "runall"

/-- The operands and options of the command. -/
def grammar : Grammar where
  operands := [.path]
  options :=
    [("iters", .single .count), ("benchmark", .repeated .text), ("settings", .single .path),
      ("plotter", .single .path)]

/-- What the command is asked to do. -/
structure Request where
  root : Path
  iterations : Nat
  benchmarks : List String
  settings : Option Path
  plotter : Option Path
  deriving DecidableEq, Repr

/-- The request that matched arguments make. -/
def Request.ofMatches (m : Matches) : Request where
  root := ⟨m.operand 0⟩
  iterations := (m.count? "iters").getD 1
  benchmarks := m.values "benchmark"
  settings := (m.value? "settings").map Path.mk
  plotter := (m.value? "plotter").map Path.mk

/-- The suite of a request under some settings. -/
def Request.suite (r : Request) (settings : Settings) : Suite where
  root := r.root
  benchmarks := if r.benchmarks = [] then Suite.standardBenchmarks else r.benchmarks
  iterations := r.iterations
  settings
  plotter := r.plotter

/-- The settings of a request. -/
def Request.loadSettings (r : Request) (host : Host) (tree : Tree) : Except Failure Settings :=
  match r.settings with
  | none => .ok .standard
  | some path => Settings.load host.complaint tree path

/-- The texts that a request reads. -/
def Request.texts (r : Request) : List Path :=
  let suite := r.suite .standard
  r.settings.toList ++
    suite.benchmarks.map fun name => (suite.directory name).join Recipe.fileName

/-- The programs that a request starts under some settings. -/
def Request.programs (r : Request) (settings : Settings) : List Path :=
  let suite := r.suite settings
  suite.plotterPath :: suite.benchmarks.flatMap fun name =>
    settings.allocators.map (suite.sweep name).program

/-- What is printed of a notice. -/
def noticeOutput (colors : Bool) (s : Suite) : Suite.Notice → Output
  | .benchmark name =>
    .line .out ("benchmark name = " ++ name) ++
      .line .out (Sweep.banner colors (s.directory name) s.iterations)
  | .progress p => ((p.line? colors).map (Output.line .out)).getD .none
  | .sweepFailed _ failure => .line .err failure.message
  | .plotted _ status printed =>
    .concat (printed.map fun (stream, data) => .bytes stream data) ++
      .line .out (Text.decimalText status)

/-- Carry out a request. -/
def perform (host : Host) (colors : Bool) (r : Request) (tree : Tree) : Exit :=
  match r.loadSettings host tree with
  | .error failure => ⟨1, .line .err failure.message, tree⟩
  | .ok settings =>
    let suite := r.suite settings
    let ran := suite.run host (Runner.processes host) tree ()
    { code := exitCode (Suite.total ran.rows)
      output := .concat (ran.notices.map (noticeOutput colors suite))
      tree := ran.tree }

/-- The answer to an argument vector. -/
def run (host : Host) (colors : Bool) (args : List String) (tree : Tree) : Response :=
  match grammar.scan args with
  | .error stop => .ofStop command tree stop
  | .ok found => .done (perform host colors (.ofMatches found) tree)

end BenchSweep.CommandLine.RunAll
