import BenchSweep.Files.Operations

/-!
# The host of a sweep

What a sweep finds outside of itself, apart from the files: programs that can be started, and the
words in which a text is refused that is no settings document.  Nothing is known of them; all that
is said of sweeps and suites is said of any host.

* `Effect` : what a program does to the world.
* `Run` : a program from its start to its end.
* `Run.awaited` : what is seen of it by somebody who waits for it, up to a deadline or to its end.
* `Host` : what is started by a path and arguments.
-/

namespace BenchSweep

/-! ## Programs that run -/

/-- What a program does to the world: it writes to one of its streams, or it changes the files in
any other way. -/
inductive Effect
  | print (stream : Stream) (data : List UInt8)
  | change (act : Tree → Tree)

/-- What is printed by an effect. -/
def Effect.printed? : Effect → Option (Stream × List UInt8)
  | print stream data => some (stream, data)
  | change _ => none

/-- The files after an effect, unless they take what is printed. -/
def Effect.changed (t : Tree) : Effect → Tree
  | print _ _ => t
  | change act => act t

/-- An effect, some milliseconds after the one before it. -/
structure Act where
  delay : Nat
  effect : Effect

/-- A program that was started: the reading of the clock at its start, in milliseconds, what it does
from then on, and how long after that it ends, and how.  Every run has an end, be it thousands of
years away: a program that goes on for ever is one that outlives the time limit it is given; and
where it is given none, nobody who waits for it comes to see anything. -/
structure Run where
  startedAt : Nat
  acts : List Act
  rest : Nat
  ending : Ending

namespace Run

/-- All effects of a run. -/
def effects (run : Run) : List Effect := run.acts.map Act.effect

/-- The reading of the clock at the end of a run. -/
def endsAt (run : Run) : Nat :=
  run.acts.foldl (fun now act => now + act.delay) run.startedAt + run.rest

/-- The effects that happen up to a deadline, from a reading of the clock on. -/
def effectsBy (deadline : Nat) : (now : Nat) → List Act → List Effect
  | _, [] => []
  | now, act :: rest =>
    if now + act.delay ≤ deadline then
      act.effect :: effectsBy deadline (now + act.delay) rest
    else []

/-- What is seen of a run by somebody who waits for it: its effects, and its status at the end.  One
that has not ended by the deadline, if there is one, is stopped then and has no status. -/
def awaited (run : Run) : Option Nat → List Effect × Option WaitStatus
  | none => (run.effects, some run.ending.status)
  | some deadline =>
    if run.endsAt ≤ deadline then (run.effects, some run.ending.status)
    else (effectsBy deadline run.startedAt run.acts, none)

end Run

/-! ## Hosts -/

/-- The surroundings of a sweep: what is started by a path and arguments in a file tree, or why
nothing is; and what is complained of a text that is no settings document. -/
structure Host where
  start : Tree → Path → List String → Except Fault Run
  complaint : String → String

end BenchSweep
