import BenchSweep.Proofs.CommandLine.Status

/-!
# The summary of a sweep

What the one line that sums up a sweep says, beside what the sweep did.

* `Instant.secondsUntil_eq` : the seconds between two instants are the nanoseconds between them,
  with a leap second if there is one, divided by those of a second and rounded toward zero.
* `Sweep.length_calls` : the trials of a sweep that goes through are those of its three loops.
* `Sweep.countP_story` : as many lines tell of failed trials as trials fail.
* `Sweep.summary_tells` : the summary is true.
-/

namespace BenchSweep

/-! ## The time that a sweep takes -/

/-- A length of time in nanoseconds. -/
def Lapse.inNanos (l : Lapse) : Int := l.seconds * 1000000000 + l.nanoseconds

/-- The broken part of a second is dropped in either direction. -/
theorem Lapse.wholeSeconds_eq (l : Lapse) (h : l.nanoseconds < 1000000000) :
    l.wholeSeconds = l.inNanos.tdiv 1000000000 := by
  have hsign : (1000000000 : Int).sign = 1 := rfl
  have hbroken : (l.seconds < 0 ∧ 0 < l.nanoseconds) ↔
      ¬ (0 ≤ l.inNanos ∨ 1000000000 ∣ l.inNanos) := by
    unfold inNanos
    omega
  have hquotient : l.inNanos / 1000000000 = l.seconds := by
    unfold inNanos
    omega
  rw [wholeSeconds, Int.tdiv_eq_ediv, hsign, hquotient]
  by_cases hwhole : 0 ≤ l.inNanos ∨ 1000000000 ∣ l.inNanos
  · rw [if_neg (mt hbroken.mp (not_not_intro hwhole)), if_pos hwhole, Int.add_zero]
  · rw [if_pos (hbroken.mpr hwhole), if_neg hwhole]

namespace Instant

/-- An instant in nanoseconds. -/
def inNanos (i : Instant) : Int := i.seconds * 1000000000 + i.nanoseconds

/-- What is borrowed of the seconds comes back with the nanoseconds. -/
theorem inNanos_lapseUntil (i j : Instant) :
    (i.lapseUntil j).inNanos = j.inNanos - i.inNanos + i.leapBetween j * 1000000000 := by
  simp only [Lapse.inNanos, lapseUntil, nanosPerSecond, inNanos]
  omega

/-- There is no leap second between instants that are in none. -/
theorem leapBetween_eq_zero {i j : Instant} (hi : i.nanoseconds < 1000000000)
    (hj : j.nanoseconds < 1000000000) : i.leapBetween j = 0 := by
  rw [leapBetween, if_neg fun h => absurd h.2 (Nat.not_le.2 hi),
    if_neg fun h => absurd h.2 (Nat.not_le.2 hj)]

theorem secondsUntil_eq (i j : Instant) :
    i.secondsUntil j =
      (j.inNanos - i.inNanos + i.leapBetween j * 1000000000).tdiv 1000000000 := by
  have hbound : (i.lapseUntil j).nanoseconds < 1000000000 := by
    simp only [lapseUntil, nanosPerSecond]
    omega
  rw [secondsUntil, Lapse.wholeSeconds_eq _ hbound, inNanos_lapseUntil]

end Instant

/-! ## Lines that tell of failed trials -/

/-- Is it the end of a trial, and does the line that is shown of it tell of a failure? -/
def Progress.showsFailure : Progress → Bool
  | finished trial outcome =>
    ((finished trial outcome).line? false).any fun line =>
      "  trial failed: ".toList.isPrefixOf line.toList
  | _ => false

theorem Progress.showsFailure_finished (trial : Trial) (outcome : Outcome) :
    (finished trial outcome).showsFailure = outcome.isFailure := by
  cases h : outcome.isFailure <;> simp [showsFailure, line?, h]

namespace Sweep

variable {σ : Type}

/-- As many lines tell of failed trials as steps fail. -/
theorem countP_story (s : Sweep) (recipe : Recipe) (reply : Step → Reply) :
    (s.story recipe reply).countP Progress.showsFailure = s.plan.countP (failing reply) := by
  rw [story_eq]
  induction s.plan with
  | nil => rfl
  | cons step steps ih =>
      rw [List.flatMap_cons, List.countP_append, ih, List.countP_cons, Nat.add_comm]
      congr 1
      cases step with
      | folder => rfl
      | log => rfl
      | trial p a n i =>
          have hstarted : (s.announced recipe (.trial p a n i)).showsFailure = false := rfl
          rw [told, List.countP_cons_of_neg (by simp [hstarted]), List.countP_singleton,
            Progress.showsFailure_finished]
          rfl

/-- The calls of a sweep that goes through are the rounds of its three loops. -/
theorem length_calls (s : Sweep) (recipe : Recipe) (reply : Step → Reply) :
    (s.calls recipe reply).length = s.allocators.length * s.maxThreads * s.iterations := by
  simp [calls, List.length_flatMap, List.map_const', Nat.mul_assoc]

/-- A product below the limit of 64 bits is not cut. -/
theorem trials_ofTally (s : Sweep) (tally : Tally) (span : Span)
    (h : s.allocators.length * s.maxThreads * s.iterations < 2 ^ 64) :
    (Report.ofTally s tally span).trials = s.allocators.length * s.maxThreads * s.iterations := by
  simp only [Report.trials, Report.ofTally, ← UInt64.ofNat_mul, UInt64.toNat_ofNat']
  exact Nat.mod_eq_of_lt h

/-- The summary of a sweep that goes through is true, without colours: behind the name of the
benchmark stand the number of its failed trials, capped at the largest of 32 bits, the number of its
trials, as long as that fits into 64 bits, which it does for one allocator whatever the counts are,
and the whole seconds between the two readings of the clock, rounded toward zero, also if the clock
was put back; a leap second counts if a reading is in it.  A failed trial is one that the user has
been told of, there are no more of them than trials, and there is none exactly if all trials ended
well. -/
theorem summary_tells (s : Sweep) (recipe : Recipe) (runner : Runner σ) (tree : Tree) (state : σ)
    (tally : Tally) (h : (s.run recipe runner tree state).verdict = .ok tally) (span : Span) :
    let calls := s.observations recipe runner tree state
    let told := (s.run recipe runner tree state).progress.countP Progress.showsFailure
    let failed := min (2 ^ 32 - 1) told
    let elapsed := span.started.secondsUntil span.finished
    let nanos := span.finished.inNanos - span.started.inNanos
    let product := s.allocators.length * s.maxThreads * s.iterations
    (product < 2 ^ 64 →
      (Report.ofTally s tally span).summary false =
        s.benchmark ++ ": " ++ Text.decimalText failed ++ " of " ++
          Text.decimalText calls.length ++ " trials failed in " ++ toString elapsed ++ "s") ∧
      (s.allocators.length ≤ 1 → s.maxThreads < 2 ^ 32 → s.iterations < 2 ^ 32 →
        product < 2 ^ 64) ∧
      (span.started.nanoseconds < 1000000000 → span.finished.nanoseconds < 1000000000 →
        elapsed = nanos.tdiv 1000000000) ∧
      elapsed = (nanos + span.started.leapBetween span.finished * 1000000000).tdiv 1000000000 ∧
      failed ≤ calls.length ∧
      (failed = 0 ↔ ∀ call ∈ calls, call.verdict = .ok .success) := by
  intro calls told failed elapsed nanos product
  obtain ⟨reply, hcalls, hstory, hfailures⟩ := exists_reply_of_run_ok h
  have htold : told = (s.calls recipe reply).countP Observation.failed := by
    rw [countP_calls, ← s.countP_story recipe reply, ← hstory]
  have hfailed : tally.failures = failed := by
    rw [hfailures, ← htold]
    rfl
  have hlength : calls.length = product := by
    show (s.observations recipe runner tree state).length = _
    rw [hcalls, length_calls]
  have helapsed : elapsed =
      (nanos + span.started.leapBetween span.finished * 1000000000).tdiv 1000000000 :=
    Instant.secondsUntil_eq _ _
  refine ⟨fun hproduct => ?_, fun hone hthreads hiterations => ?_, fun hstarted hfinished => ?_,
    helapsed, ?_, ?_⟩
  · have helapsed : (Report.ofTally s tally span).elapsed = elapsed := rfl
    have htrials := trials_ofTally s tally span hproduct
    rw [Report.summary, Style.paint_false, helapsed, htrials, hlength, ← hfailed]
    rfl
  · -- one allocator leaves a product of two numbers of 32 bits
    calc
      product ≤ 1 * (2 ^ 32 - 1) * (2 ^ 32 - 1) :=
        Nat.mul_le_mul (Nat.mul_le_mul hone (by omega)) (by omega)
      _ < 2 ^ 64 := by decide
  · rw [helapsed, Instant.leapBetween_eq_zero hstarted hfinished, Int.zero_mul, Int.add_zero]
  · calc
      failed ≤ told := Nat.min_le_right _ _
      _ ≤ calls.length := by
        show _ ≤ (s.observations recipe runner tree state).length
        rw [htold, hcalls]
        exact List.countP_le_length
  · rw [← hfailed]
    exact failures_eq_zero_iff h

/-- Every other trial fails, and the clock is put back by almost three seconds. -/
theorem summary_tells_putBack :
    let s : Sweep := ⟨⟨"."⟩, "larson", ["libc", "libc"], 2, 2⟩
    let runner := Runner.scripted [⟨["x"], none, .success⟩, ⟨[], none, .exited 2⟩]
    let span : Span := ⟨⟨5, 900000000⟩, ⟨3, 100000000⟩⟩
    (s.run ⟨10, ["7"]⟩ runner Tree.bare 0).verdict = .ok ⟨s.logPaths, 4⟩ ∧
      (Report.ofTally s ⟨s.logPaths, 4⟩ span).summary false =
        "larson: 4 of 8 trials failed in -2s" := by
  intro s runner span
  have h : (s.run ⟨10, ["7"]⟩ runner Tree.bare 0).verdict = .ok ⟨s.logPaths, 4⟩ := by
    decide +kernel
  obtain ⟨hsummary, -, helapsed, -⟩ := summary_tells s _ runner Tree.bare 0 _ h span
  refine ⟨h, ?_⟩
  rw [hsummary (by decide), helapsed (by decide) (by decide)]
  decide +kernel

end Sweep

end BenchSweep
