import BenchSweep.Runner

/-!
# Watching a runner

Any runner can be watched from the outside: its calls, what came of them, and the log that
each left.

* `Runner.observed` : a runner with a record of what is seen of its calls.
* `Runner.Simulates` : two runners that do the same to the outside.
* `Runner.KeepsLog` : a runner that hands back the log it was given, as scripts do
  (`keepsLog_scripted`) and `Runner.swapping` does not.
-/

namespace BenchSweep

/-! ## Observations -/

/-- A call of a runner with its verdict and the place of the log that it hands back. -/
structure Observation extends Runner.Call where
  verdict : Except Failure Outcome
  left : Path

/-- Did the call return the outcome of a trial that failed? -/
def Observation.failed (o : Observation) : Bool :=
  match o.verdict with
  | .ok outcome => outcome.isFailure
  | .error _ => false

variable {σ τ : Type}

/-- An attempt, with its state seen through a function. -/
def Attempt.mapState (f : τ → σ) (left : Attempt τ) : Attempt σ where
  verdict := left.verdict
  log := left.log
  tree := left.tree
  state := f left.state

namespace Runner

/-- A runner with a record of its calls and of what came of them, in order. -/
def observed (r : Runner σ) : Runner (σ × List Observation) where
  run trial timeout log t state :=
    let left := r.run trial timeout log t state.1
    let seen := ⟨⟨trial, timeout, log.path⟩, left.verdict, left.log.path⟩
    { verdict := left.verdict
      log := left.log
      tree := left.tree
      state := (left.state, state.2 ++ [seen]) }

/-- A call adds itself to the record. -/
theorem exists_call_of_observed {r : Runner σ} {trial : Trial} {timeout : Timeout}
    {log : ResultLog} {t : Tree} {state : σ × List Observation}
    {left : Attempt (σ × List Observation)}
    (h : r.observed.run trial timeout log t state = left) :
    ∃ call, left.state.2 = state.2 ++ [call] ∧ call.trial = trial ∧
      call.verdict = left.verdict := by
  subst h
  exact ⟨_, rfl, rfl, rfl⟩

/-- Does the runner hand back the log that it was given, and no other in its place? -/
def KeepsLog (r : Runner σ) : Prop :=
  ∀ trial timeout log t state, (r.run trial timeout log t state).log.path = log.path

/-- A runner that does nothing but put another log in the place of the one it is given. -/
def swapping (other : ResultLog) : Runner Unit where
  run _ _ _ t state := ⟨.ok .success, other, t, state⟩

/-- The two runners do the same to the outside, with the states of one seen through a
function. -/
def Simulates (inner : Runner σ) (f : τ → σ) (outer : Runner τ) : Prop :=
  ∀ trial timeout log t state,
    inner.run trial timeout log t (f state) = (outer.run trial timeout log t state).mapState f

theorem simulates_observed (r : Runner σ) : r.Simulates Prod.fst r.observed :=
  fun _ _ _ _ _ => rfl

end Runner

/-! ## Runners that keep their logs -/

theorem ResultLog.path_write {log left : ResultLog} {t tree : Tree} {data : List UInt8}
    (h : log.write t data = .ok (tree, left)) : left.path = log.path := by
  unfold write at h
  split at h
  · cases h
    rfl
  · cases h

namespace Runner

theorem path_conclude (outcome : Outcome) (log : ResultLog) (t : Tree) (state : σ) :
    (conclude outcome log t state).log.path = log.path := by
  unfold conclude
  split
  · rfl
  · split
    · exact ResultLog.path_write ‹_›
    · rfl

theorem path_writeLines (log : ResultLog) (t : Tree) (lines : List String) :
    (writeLines log t lines).2.1.path = log.path := by
  induction lines generalizing log t with
  | nil => rfl
  | cons line rest ih =>
      unfold writeLines
      split
      · rw [ih]
        exact ResultLog.path_write ‹_›
      · rfl

theorem path_play (cue : Cue) (log : ResultLog) (t : Tree) (state : σ) :
    (play cue log t state).log.path = log.path := by
  have hlines := path_writeLines log t cue.lines
  unfold play
  split <;> rename_i hw <;> rw [hw] at hlines
  · exact hlines
  · split
    · exact hlines
    · rw [path_conclude]
      exact hlines

/-- Scripts keep their logs. -/
theorem keepsLog_scripted (cues : List Cue) : (scripted cues).KeepsLog := by
  intro trial timeout log t count
  unfold scripted
  dsimp only
  split
  · exact path_play _ log t _
  · exact path_conclude _ log t _

end Runner

end BenchSweep
