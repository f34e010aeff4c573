import BenchSweep.Outcome
import BenchSweep.Style
import BenchSweep.Trial

/-!
# Progress of a sweep

* `Progress` : what a sweep tells while it runs.
* `Progress.line?` : the line that a user sees of it.
-/

namespace BenchSweep

/-- What a sweep tells while it runs; the time limit is in seconds. -/
inductive Progress
  | allocator (name : String)
  | threads (allocator : String) (count : Nat)
  | started (trial : Trial) (timeLimit : Nat)
  | finished (trial : Trial) (outcome : Outcome)
  deriving DecidableEq, Repr

/-- The line that a user sees; a trial that ended well shows none. -/
def Progress.line? (colors : Bool) : Progress → Option String
  | allocator name => some ("allocator name = " ++ name)
  | threads _ count => some ("Thread " ++ Text.decimalText count)
  | started trial timeLimit => some (trial.announcement timeLimit)
  | finished _ outcome =>
    if outcome.isFailure then
      some (Style.failure.paint colors ("  trial failed: " ++ outcome.label))
    else none

end BenchSweep
