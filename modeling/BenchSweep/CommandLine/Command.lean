import BenchSweep.CommandLine.RunAll
import BenchSweep.CommandLine.RunBench

/-!
# Commands

The commands on a host side by side, each with what it answers and what it needs from outside.

* `Command.named?` : the command of a name.
-/

namespace BenchSweep.CommandLine

/-- A command: how it is used, the texts it reads, the programs it starts, and its
answer to arguments in a file tree. -/
structure Command where
  name : String
  usage : String
  texts : List String → List Path
  programs : List String → Tree → List Path
  answer : List String → Tree → Response

namespace Command

/-- A clock that stands still at the start of 1970. -/
def stillClock : Span := ⟨⟨0, 0⟩, ⟨0, 0⟩⟩

/-- The programs of a request whose settings can be loaded. -/
def programsUnder (settings : Except Failure Settings) (programs : Settings → List Path) :
    List Path :=
  match settings with
  | .ok s => programs s
  | .error _ => []

/-- The request that arguments make, seen through `f`; nothing if they make none. -/
def ofArgs {α β : Type} (grammar : Grammar) (request : Matches → α) (args : List String)
    (f : α → List β) : List β :=
  match grammar.scan args with
  | .ok found => f (request found)
  | .error _ => []

/-- Sweep one benchmark. -/
def runBench (host : Host) : Command where
  name := RunBench.command
  usage := "runbench DIR NAME ITERS [--settings FILE] [--allocator NAME]... " ++
    "[--max-threads N] [--json]"
  texts args := ofArgs RunBench.grammar .ofMatches args RunBench.Request.texts
  programs args tree := ofArgs RunBench.grammar .ofMatches args fun r =>
    programsUnder (RunBench.Request.loadSettings r host tree) r.programs
  answer := RunBench.run host false stillClock

/-- Run a suite. -/
def runAll (host : Host) : Command where
  name := RunAll.command
  usage := "runall ROOT [--iters N] [--benchmark NAME]... [--settings FILE] [--plotter FILE]"
  texts args := ofArgs RunAll.grammar .ofMatches args RunAll.Request.texts
  programs args tree := ofArgs RunAll.grammar .ofMatches args fun r =>
    programsUnder (RunAll.Request.loadSettings r host tree) r.programs
  answer := RunAll.run host false

/-- The command of a name. -/
def named? (host : Host) (name : String) : Option Command :=
  [runBench host, runAll host].find? (·.name == name)

end Command

end BenchSweep.CommandLine
