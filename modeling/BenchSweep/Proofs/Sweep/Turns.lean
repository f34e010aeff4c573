import BenchSweep.Proofs.Sweep.Plan

/-!
# Counting the trials of a sweep

* `Sweep.turn` : the number of trials in front of a trial.
* `Sweep.length_turns` : as many stand in front of it in the plan.
* `Sweep.filter_ofPair` : the trials of one allocator on one number of threads stand in the
  order of their iterations.
-/

namespace BenchSweep.Sweep

/-! ## Turns -/

/-- The number of trials in front of a trial. -/
def turn (s : Sweep) (position threads iteration : Nat) : Nat :=
  (position * s.maxThreads + (threads - 1)) * s.iterations + (iteration - 1)

/-- The turn of a trial; the other steps have none. -/
def turns (s : Sweep) : Step → List Nat
  | .trial p _ n i => [s.turn p n i]
  | _ => []

/-- Blocks of the same length, one after the other. -/
theorem flatMap_blocks (b c m : Nat) :
    ((List.range' 1 m).flatMap fun k => List.range' ((b + (k - 1)) * c) c) =
      List.range' (b * c) (m * c) := by
  induction m with
  | zero => simp
  | succ m ih =>
      rw [List.range'_1_concat, List.flatMap_append, ih, List.flatMap_singleton,
        Nat.add_sub_cancel_left, Nat.add_mul, Nat.succ_mul, List.range'_append_1]

/-- Blocks of the same length for the rows of a table. -/
theorem flatMap_zipIdx_blocks (allocators : List String) (k c : Nat) :
    ((allocators.zipIdx k).flatMap fun row => List.range' (row.2 * c) c) =
      List.range' (k * c) (allocators.length * c) := by
  induction allocators generalizing k with
  | nil => simp
  | cons a rest ih =>
      rw [List.zipIdx_cons, List.flatMap_cons, ih, List.length_cons, Nat.succ_mul, Nat.succ_mul,
        Nat.add_comm (rest.length * c) c, List.range'_append_1]

/-- The trials of the plan take their turns one after the other. -/
theorem flatMap_turns (s : Sweep) :
    s.plan.flatMap s.turns =
      List.range (s.allocators.length * (s.maxThreads * s.iterations)) := by
  have htrials (b : Nat) : ((List.range' 1 s.iterations).flatMap fun i => [b + (i - 1)]) =
      List.range' b s.iterations := by
    simpa using flatMap_blocks b 1 s.iterations
  have hrows := flatMap_zipIdx_blocks s.allocators 0 (s.maxThreads * s.iterations)
  rw [Nat.zero_mul] at hrows
  rw [flatMap_plan, List.range_eq_range', ← hrows]
  simp only [turns, turn, List.nil_append, htrials, flatMap_blocks, Nat.mul_assoc]

/-- As many trials stand in front of a trial as its turn says. -/
theorem length_turns {s : Sweep} {done rest : List Step} {p n i : Nat} {a : String}
    (h : s.plan = done ++ .trial p a n i :: rest) :
    (done.flatMap s.turns).length = s.turn p n i := by
  have hall := s.flatMap_turns
  rw [h, List.flatMap_append, List.flatMap_cons, turns, List.singleton_append] at hall
  -- the turn of the trial stands behind the turns in front of it, at their number
  have hat := congrArg (fun l => l[(done.flatMap s.turns).length]?) hall
  simp only [List.getElem?_append_right (Nat.le_refl _), Nat.sub_self, List.getElem?_cons_zero]
    at hat
  obtain ⟨_, heq⟩ := List.getElem?_eq_some_iff.1 hat.symm
  simpa using heq

/-! ## Pairs of an allocator and a number of threads -/

/-- Elements that give nothing may be left out. -/
theorem flatMap_filter_of_nil {α β : Type} {l : List α} {f : α → List β} {p : α → Bool}
    (h : ∀ x ∈ l, p x = false → f x = []) : (l.filter p).flatMap f = l.flatMap f := by
  induction l with
  | nil => rfl
  | cons x l ih =>
      obtain ⟨hx, hl⟩ := List.forall_mem_cons.1 h
      rw [List.filter_cons, List.flatMap_cons, ← ih hl]
      split
      · rfl
      · next hp => rw [hx (by simpa using hp), List.nil_append]

/-- Is the step a trial of the allocator on the number of threads? -/
def Step.ofPair (a : String) (n : Nat) : Step → Bool
  | .trial _ b m _ => b = a && m = n
  | _ => false

/-- Steps in the order of the plan are known by what they are. -/
theorem eq_of_pairwise_before {xs ys : List Step} (hx : xs.Pairwise Step.Before)
    (hy : ys.Pairwise Step.Before) (hmem : ∀ step, step ∈ xs ↔ step ∈ ys) : xs = ys := by
  have hperm := (List.perm_ext_iff_of_nodup (nodup_of_pairwise_before hx)
    (nodup_of_pairwise_before hy)).2 fun step => hmem step
  exact hperm.eq_of_pairwise (fun x y _ _ hxy hyx => absurd hyx hxy.asymm) hx hy

/-- The allocator at a position is known, and its position, if all allocators are different. -/
theorem position_unique {allocators : List String} (hnd : allocators.Nodup) {p q : Nat} {a : String}
    (hp : allocators[p]? = some a) (hq : allocators[q]? = some a) : p = q := by
  obtain ⟨hp, rfl⟩ := List.getElem?_eq_some_iff.1 hp
  obtain ⟨hq, heq⟩ := List.getElem?_eq_some_iff.1 hq
  exact (List.getElem_inj hnd).1 heq.symm

/-- Those of the first steps of a plan that are the trials of one allocator on one number of threads
stand in the order of their iterations. -/
theorem filter_eq_trials {s : Sweep} {done rest : List Step} {f : Step → Bool} {p n k : Nat}
    {a : String} (hplan : s.plan = done ++ rest)
    (hmem : ∀ step, step ∈ done ∧ f step = true ↔ ∃ i, (1 ≤ i ∧ i ≤ k) ∧ .trial p a n i = step) :
    done.filter f = (List.range' 1 k).map (.trial p a n) := by
  have hsorted : done.Pairwise Step.Before :=
    (List.pairwise_append.1 (hplan ▸ s.plan_pairwise)).1
  apply eq_of_pairwise_before (hsorted.filter _)
  · rw [List.pairwise_map]
    exact (List.pairwise_lt_range' 1).imp fun h => Or.inr ⟨rfl, Or.inr ⟨rfl, h⟩⟩
  · intro step
    rw [List.mem_filter, hmem, List.mem_map]
    simp only [mem_range'_one]

/-- Among the first steps of a plan over different allocators, the trials of one allocator on
one number of threads stand in the order of their iterations, from one up. -/
theorem filter_ofPair {s : Sweep} {done rest : List Step} {p n k : Nat} {a : String}
    (hnd : s.allocators.Nodup) (hp : s.allocators[p]? = some a) (hplan : s.plan = done ++ rest)
    (hdone : ∀ i, .trial p a n i ∈ done ↔ 1 ≤ i ∧ i ≤ k) :
    done.filter (Step.ofPair a n) = (List.range' 1 k).map (.trial p a n) := by
  refine filter_eq_trials hplan fun step => ?_
  constructor
  · rintro ⟨hmem, hpair⟩
    cases step with
    | folder => cases hpair
    | log => cases hpair
    | trial q b m i =>
        obtain ⟨rfl, rfl⟩ : b = a ∧ m = n := by simpa [Step.ofPair] using hpair
        have hplanned : s.Planned (.trial q b m i) := by
          rw [← mem_plan, hplan]
          exact List.mem_append_left rest hmem
        -- the same allocator stands at the same position
        obtain rfl := position_unique hnd hp hplanned.1
        exact ⟨i, (hdone i).1 hmem, rfl⟩
  · rintro ⟨i, hi, rfl⟩
    exact ⟨(hdone i).2 hi, by simp [Step.ofPair]⟩

end BenchSweep.Sweep
