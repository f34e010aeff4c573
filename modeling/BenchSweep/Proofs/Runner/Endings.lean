import BenchSweep.Proofs.Runner.Statuses
import BenchSweep.Runner

/-!
# How programs end

A program that was started is awaited for some time, and either ends by then or is stopped.

* `Run.EndsWithin` : a run that ends within a time limit; `Run.endsWithin_iff` reads it off the
  deadline.
* `Run.seen`, `Run.printed` : what happens of a run within a time limit, and what it prints of this.
* `Ending.outcome`, `Run.outcome` : the outcome of an ending, and that of a run within a limit.
* `Runner.processes_run_of_ok` : this is what comes of a program that is run.
-/

namespace BenchSweep

/-! ## Endings -/

/-- What an ending comes to: the code zero alone is a success. -/
def Ending.outcome : Ending → Outcome
  | exited code => if code = 0 then .success else .exited code.toNat
  | killed signal _ => .killed signal.number

/-- The status of an ending tells its outcome. -/
theorem Ending.ofStatus_status (ending : Ending) :
    Outcome.ofStatus ending.status = ending.outcome := by
  cases ending with
  | exited code =>
      have hzero : code.toNat % 256 = 0 ↔ code = 0 := by
        rw [← UInt8.toNat_inj, Nat.mod_eq_of_lt code.toNat_lt]
        rfl
      rw [status, Outcome.ofStatus_exited, Nat.mod_eq_of_lt code.toNat_lt, outcome]
      simp only [← hzero, Nat.mod_eq_of_lt code.toNat_lt]
  | killed signal coreDumped =>
      exact Outcome.ofStatus_killed_of_le coreDumped signal.pos signal.le

namespace Run

/-! ## Runs within a time limit -/

/-- Does the run end within a time limit?  A limit that leads beyond what the clock can show is
none. -/
def EndsWithin (run : Run) (timeout : Timeout) : Prop :=
  ∀ deadline, timeout.deadline? run.startedAt = some deadline → run.endsAt ≤ deadline

/-- It ends by the deadline, unless the clock cannot show that. -/
theorem endsWithin_iff (run : Run) (timeout : Timeout) :
    run.EndsWithin timeout ↔
      run.endsAt ≤ run.startedAt + timeout.milliseconds ∨
        Timeout.lastSecond < (run.startedAt + timeout.milliseconds) / 1000 := by
  unfold EndsWithin Timeout.deadline?
  dsimp only
  split
  · next hshown => simp [Nat.not_lt.2 hshown]
  · next hhidden => simp [Nat.not_le.1 hhidden]

instance (run : Run) (timeout : Timeout) : Decidable (run.EndsWithin timeout) :=
  decidable_of_iff _ (run.endsWithin_iff timeout).symm

/-- What happens of a run within a time limit: all of it if it ends, and else what happens up to the
deadline. -/
def seen (run : Run) (timeout : Timeout) : List Effect :=
  (run.awaited (timeout.deadline? run.startedAt)).1

/-- All that a run prints within a time limit, to both its streams, in the order in which it prints
it. -/
def printed (run : Run) (timeout : Timeout) : List UInt8 :=
  (run.seen timeout).flatMap fun effect => (effect.printed?.map Prod.snd).getD []

/-- The outcome of a run within a time limit. -/
def outcome (run : Run) (timeout : Timeout) : Outcome :=
  if run.EndsWithin timeout then run.ending.outcome else .timedOut

/-- A run that ends is seen to its end. -/
theorem awaited_of_endsWithin {run : Run} {timeout : Timeout} (h : run.EndsWithin timeout) :
    run.awaited (timeout.deadline? run.startedAt) = (run.effects, some run.ending.status) := by
  cases hdeadline : timeout.deadline? run.startedAt with
  | none => rfl
  | some deadline => exact if_pos (h deadline hdeadline)

/-- A run that does not end is stopped at its deadline. -/
theorem awaited_of_not_endsWithin {run : Run} {timeout : Timeout} (h : ¬ run.EndsWithin timeout) :
    ∃ deadline, timeout.deadline? run.startedAt = some deadline ∧
      run.awaited (timeout.deadline? run.startedAt) =
        (effectsBy deadline run.startedAt run.acts, none) := by
  obtain ⟨deadline, h⟩ := Classical.not_forall.1 h
  obtain ⟨hdeadline, hlate⟩ := Classical.not_imp.1 h
  refine ⟨deadline, hdeadline, ?_⟩
  rw [hdeadline]
  exact if_neg hlate

end Run

namespace Runner

theorem outcomeOf_awaited (run : Run) (timeout : Timeout) :
    outcomeOf (run.awaited (timeout.deadline? run.startedAt)).2 = run.outcome timeout := by
  by_cases h : run.EndsWithin timeout
  · rw [Run.awaited_of_endsWithin h, Run.outcome, if_pos h]
    exact run.ending.ofStatus_status
  · obtain ⟨deadline, -, hstopped⟩ := Run.awaited_of_not_endsWithin h
    rw [hstopped, Run.outcome, if_neg h]
    rfl

section

variable {host : Host} {trial : Trial} {timeout : Timeout} {log : ResultLog} {t : Tree}

/-- A program that cannot be started leaves everything as it is. -/
theorem processes_run_of_error {fault : Fault}
    (h : host.start (t.hold log.handle) trial.program trial.args = .error fault) :
    (processes host).run trial timeout log t () =
      ⟨.error (.programNotStarted trial.program fault), log, t, ()⟩ := by
  simp only [processes, h]

/-- Of a program that is started its effects happen, and then its outcome is put in the log. -/
theorem processes_run_of_ok {run : Run}
    (h : host.start (t.hold log.handle) trial.program trial.args = .ok run) :
    (processes host).run trial timeout log t () =
      let world := (run.seen timeout).foldl perform (log, t)
      conclude (run.outcome timeout) world.1 world.2 () := by
  simp only [processes, h, outcomeOf_awaited, Run.seen]

end

end Runner

end BenchSweep
