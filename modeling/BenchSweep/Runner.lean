import BenchSweep.Archive
import BenchSweep.Host
import BenchSweep.Outcome
import BenchSweep.Recipe
import BenchSweep.Trial

/-!
# Runners

A runner carries out one trial after the other.  It may keep a state of its own
between trials.

* `Runner.processes` : starts the program of a trial and waits for it.
* `Runner.scripted` : plays prepared trials instead.
* `Runner.recorded` : any runner, with a record of its calls.
-/

namespace BenchSweep

/-- What is left of a trial that was attempted. -/
structure Attempt (σ : Type) where
  verdict : Except Failure Outcome
  log : ResultLog
  tree : Tree
  state : σ

/-- How trials are carried out: a trial, its time limit and the log for its output,
in a file tree and a state of the runner. -/
structure Runner (σ : Type) where
  run : Trial → Timeout → ResultLog → Tree → σ → Attempt σ

namespace Runner

variable {σ : Type}

/-- End a trial: a failure leaves its annotation in the log. -/
def conclude (outcome : Outcome) (log : ResultLog) (t : Tree) (state : σ) : Attempt σ :=
  match outcome.annotation with
  | none => ⟨.ok outcome, log, t, state⟩
  | some line =>
    match log.writeLine t line with
    | .ok (written, log) => ⟨.ok outcome, log, written, state⟩
    | .error failure => ⟨.error failure, log, t, state⟩

/-! ## Programs -/

/-- Let an effect of a program happen, with both its streams going to a log; what
the log does not take is lost. -/
def perform (world : ResultLog × Tree) : Effect → ResultLog × Tree
  | .print _ data =>
    match world.1.write world.2 data with
    | .ok (written, log) => (log, written)
    | .error _ => world
  | .change act => (world.1, act world.2)

/-- The outcome of a program that ended with a status or was stopped. -/
def outcomeOf : Option WaitStatus → Outcome
  | some status => .ofStatus status
  | none => .timedOut

/-- Start the program of each trial and wait for it; the log is open meanwhile. -/
def processes (host : Host) : Runner Unit where
  run trial timeout log t state :=
    match host.start (t.hold log.handle) trial.program trial.args with
    | .error fault => ⟨.error (.programNotStarted trial.program fault), log, t, state⟩
    | .ok run =>
      let (effects, ending) := run.awaited (timeout.deadline? run.startedAt)
      let (log, t) := effects.foldl perform (log, t)
      conclude (outcomeOf ending) log t state

/-! ## Scripts -/

/-- A prepared trial: the lines it writes, then a failure to report or an outcome. -/
structure Cue where
  lines : List String
  failure : Option String
  outcome : Outcome
  deriving DecidableEq, Repr

/-- Write lines to a log, up to the first that it does not take. -/
def writeLines (log : ResultLog) (t : Tree) : List String →
    Except Failure Unit × ResultLog × Tree
  | [] => (.ok (), log, t)
  | line :: rest =>
    match log.writeLine t line with
    | .ok (written, log) => writeLines log written rest
    | .error failure => (.error failure, log, t)

/-- Play a prepared trial. -/
def play (cue : Cue) (log : ResultLog) (t : Tree) (state : σ) : Attempt σ :=
  match writeLines log t cue.lines with
  | (.error failure, log, t) => ⟨.error failure, log, t, state⟩
  | (.ok (), log, t) =>
    match cue.failure with
    | some text => ⟨.error (.reported text), log, t, state⟩
    | none => conclude cue.outcome log t state

/-- Play the prepared trials in turn, over and over; the state counts the calls. -/
def scripted (cues : List Cue) : Runner Nat where
  run _ _ log t count :=
    match cues[count % cues.length]? with
    | some cue => play cue log t (count + 1)
    | none => conclude .success log t (count + 1)

/-! ## Records -/

/-- A call of a runner. -/
structure Call where
  trial : Trial
  timeout : Timeout
  log : Path
  deriving DecidableEq, Repr

/-- A runner with a record of its calls, in order. -/
def recorded (r : Runner σ) : Runner (σ × List Call) where
  run trial timeout log t state :=
    let attempt := r.run trial timeout log t state.1
    { verdict := attempt.verdict
      log := attempt.log
      tree := attempt.tree
      state := (attempt.state, state.2 ++ [⟨trial, timeout, log.path⟩]) }

end Runner

end BenchSweep
