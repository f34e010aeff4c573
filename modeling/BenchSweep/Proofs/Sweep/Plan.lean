import BenchSweep.Sweep

/-!
# The plan of a sweep

A sweep is three loops inside one another.  Here they are laid out as one list of
steps, in the order in which a sweep takes them if nothing fails.

* `Sweep.plan` : the steps of a sweep.
* `Sweep.follow_plan` : the loops of a sweep follow its plan.
* `Sweep.plan_pairwise` : the plan goes up in the order of `Step.Before`, so that in front
  of a step stands all that comes before it (`Sweep.mem_iff_before`).
-/

namespace BenchSweep.Sweep

/-! ## Steps -/

/-- A step of a sweep, with the position of its allocator in the list of allocators. -/
inductive Step
  /-- See to the folder of an allocator. -/
  | folder (position : Nat) (allocator : String)
  /-- Open the log for a number of threads. -/
  | log (position : Nat) (allocator : String) (threads : Nat)
  /-- Have a trial carried out. -/
  | trial (position : Nat) (allocator : String) (threads iteration : Nat)
  deriving DecidableEq, Repr

/-- The position, the threads and the iteration of a step; the folder comes before all
threads, and the log before all iterations. -/
def Step.rank : Step → Nat × Nat × Nat
  | folder p _ => (p, 0, 0)
  | log p _ n => (p, n, 0)
  | trial p _ n i => (p, n, i)

/-- The lexicographic order of the ranks. -/
def Step.Before (x y : Step) : Prop :=
  x.rank.1 < y.rank.1 ∨ x.rank.1 = y.rank.1 ∧
    (x.rank.2.1 < y.rank.2.1 ∨ x.rank.2.1 = y.rank.2.1 ∧ x.rank.2.2 < y.rank.2.2)

/-- The steps for a number of threads. -/
def pairSteps (s : Sweep) (position : Nat) (allocator : String) (threads : Nat) : List Step :=
  .log position allocator threads ::
    (List.range' 1 s.iterations).map (.trial position allocator threads)

/-- The steps for an allocator. -/
def allocatorSteps (s : Sweep) (position : Nat) (allocator : String) : List Step :=
  .folder position allocator ::
    (List.range' 1 s.maxThreads).flatMap (s.pairSteps position allocator)

/-- The steps of a sweep, in order. -/
def plan (s : Sweep) : List Step :=
  s.allocators.zipIdx.flatMap fun row => s.allocatorSteps row.2 row.1

/-! ## The loops follow the plan -/

variable {σ : Type}

/-- The course of a step, with the log that is open before it and the one that is open
after it. -/
def stepCourse (s : Sweep) (recipe : Recipe) (runner : Runner σ) (archive : Archive)
    (log : ResultLog) : Step → Course σ ResultLog
  | .folder _ allocator => do
    tell (.allocator allocator)
    ensureFolder archive allocator
    return log
  | .log _ allocator threads => do
    tell (.threads allocator threads)
    s.openLog archive allocator threads
  | .trial _ allocator threads iteration => do
    let trial := s.trial recipe allocator threads iteration
    tell (.started trial recipe.timeLimit)
    let (outcome, log) ← attempt runner recipe trial log
    tell (.finished trial outcome)
    return log

/-- Take steps one after the other. -/
def follow (s : Sweep) (recipe : Recipe) (runner : Runner σ) (archive : Archive)
    (log : ResultLog) : List Step → Course σ Unit
  | [] => pure ()
  | step :: rest => do
    let log ← s.stepCourse recipe runner archive log step
    follow s recipe runner archive log rest

section

variable (s : Sweep) (recipe : Recipe) (runner : Runner σ) (archive : Archive)
  {rest : List Step} {next : Course σ Unit}

/-- The innermost loop, in front of steps that do not care for the log left open. -/
theorem follow_trials (h : ∀ log, s.follow recipe runner archive log rest = next)
    (p : Nat) (a : String) (n left i : Nat) (log : ResultLog) :
    s.follow recipe runner archive log ((List.range' i left).map (.trial p a n) ++ rest) =
      (do s.iterate recipe runner a n left i log; next) := by
  induction left generalizing i log with
  | zero => simp [iterate, h]
  | succ left ih =>
      simp only [iterate, List.range'_succ, List.map_cons, List.cons_append, follow, stepCourse,
        bind_assoc, pure_bind, ih]

/-- The loop over the thread counts, in front of steps that do not care for the log left
open. -/
theorem follow_pairs (h : ∀ log, s.follow recipe runner archive log rest = next)
    (p : Nat) (a : String) (left n : Nat) (log : ResultLog) :
    s.follow recipe runner archive log ((List.range' n left).flatMap (s.pairSteps p a) ++ rest) =
      (do s.overThreads recipe runner archive a left n; next) := by
  induction left generalizing n log with
  | zero => simp [overThreads, h]
  | succ left ih =>
      -- behind the trials stand the steps for the next number, which open a log of their own
      rw [List.range'_succ, List.flatMap_cons, pairSteps, List.cons_append, List.cons_append,
        List.append_assoc, follow, stepCourse, overThreads]
      simp only [bind_assoc, follow_trials s recipe runner archive (ih (n + 1))]

/-- The loop over the allocators, from a position on. -/
theorem follow_allocators (allocators : List String) (k : Nat) (log : ResultLog) :
    s.follow recipe runner archive log
        ((allocators.zipIdx k).flatMap fun row => s.allocatorSteps row.2 row.1) =
      s.overAllocators recipe runner archive allocators := by
  induction allocators generalizing k log with
  | nil => rfl
  | cons a rest ih =>
      rw [List.zipIdx_cons, List.flatMap_cons, allocatorSteps, List.cons_append, follow,
        stepCourse, overAllocators]
      simp only [bind_assoc, pure_bind, follow_pairs s recipe runner archive (ih (k + 1))]

/-- The loops of a sweep follow its plan. -/
theorem follow_plan (log : ResultLog) :
    s.follow recipe runner archive log s.plan =
      s.overAllocators recipe runner archive s.allocators :=
  s.follow_allocators recipe runner archive s.allocators 0 log

end

/-! ## The steps of the plan -/

/-- Is the step one of the plan?  Its allocator stands at its position, and threads and
iteration are in range. -/
def Planned (s : Sweep) : Step → Prop
  | .folder p a => s.allocators[p]? = some a
  | .log p a n => s.allocators[p]? = some a ∧ 1 ≤ n ∧ n ≤ s.maxThreads
  | .trial p a n i =>
    s.allocators[p]? = some a ∧ (1 ≤ n ∧ n ≤ s.maxThreads) ∧ 1 ≤ i ∧ i ≤ s.iterations

theorem mem_range'_one {n k : Nat} : k ∈ List.range' 1 n ↔ 1 ≤ k ∧ k ≤ n := by
  rw [List.mem_range'_1]
  omega

/-- The plan holds the planned steps. -/
theorem mem_plan {s : Sweep} {step : Step} : step ∈ s.plan ↔ s.Planned step := by
  simp only [plan, List.mem_flatMap, Prod.exists, List.mk_mem_zipIdx_iff_getElem?]
  constructor
  · rintro ⟨a, p, hp, h⟩
    simp only [allocatorSteps, pairSteps, List.mem_cons, List.mem_flatMap, List.mem_map,
      mem_range'_one] at h
    rcases h with rfl | ⟨n, hn, rfl | ⟨i, hi, rfl⟩⟩
    · exact hp
    · exact ⟨hp, hn⟩
    · exact ⟨hp, hn, hi⟩
  · intro h
    cases step with
    | folder p a => exact ⟨a, p, h, List.mem_cons_self⟩
    | log p a n =>
      refine ⟨a, p, h.1, List.mem_cons_of_mem _ (List.mem_flatMap.2 ⟨n, ?_, ?_⟩)⟩
      · exact mem_range'_one.2 h.2
      · exact List.mem_cons_self
    | trial p a n i =>
      refine ⟨a, p, h.1, List.mem_cons_of_mem _ (List.mem_flatMap.2 ⟨n, ?_, ?_⟩)⟩
      · exact mem_range'_one.2 h.2.1
      · exact List.mem_cons_of_mem _ (List.mem_map.2 ⟨i, mem_range'_one.2 h.2.2, rfl⟩)

theorem planned_of_plan_eq {s : Sweep} {done rest : List Step} {step : Step}
    (h : s.plan = done ++ step :: rest) : s.Planned step := by
  rw [← mem_plan, h]
  exact List.mem_append_right done List.mem_cons_self

/-- The plan, read step by step, is the three loops. -/
theorem flatMap_plan {α : Type} (s : Sweep) (f : Step → List α) :
    s.plan.flatMap f =
      s.allocators.zipIdx.flatMap fun row =>
        f (.folder row.2 row.1) ++
          (List.range' 1 s.maxThreads).flatMap fun n =>
            f (.log row.2 row.1 n) ++
              (List.range' 1 s.iterations).flatMap fun i => f (.trial row.2 row.1 n i) := by
  simp only [plan, allocatorSteps, pairSteps, List.flatMap_assoc, List.flatMap_cons,
    List.flatMap_map]

/-! ## The order of the plan -/

theorem rank_of_mem_pairSteps {s : Sweep} {p n : Nat} {a : String} {step : Step}
    (h : step ∈ s.pairSteps p a n) : step.rank.1 = p ∧ step.rank.2.1 = n := by
  simp only [pairSteps, List.mem_cons, List.mem_map] at h
  rcases h with rfl | ⟨i, -, rfl⟩ <;> exact ⟨rfl, rfl⟩

theorem rank_of_mem_allocatorSteps {s : Sweep} {p : Nat} {a : String} {step : Step}
    (h : step ∈ s.allocatorSteps p a) : step.rank.1 = p := by
  simp only [allocatorSteps, List.mem_cons, List.mem_flatMap] at h
  rcases h with rfl | ⟨n, -, h⟩
  · rfl
  · exact (rank_of_mem_pairSteps h).1

theorem pairSteps_pairwise (s : Sweep) (p : Nat) (a : String) (n : Nat) :
    (s.pairSteps p a n).Pairwise Step.Before := by
  rw [pairSteps, List.pairwise_cons, List.pairwise_map]
  constructor
  · intro step h
    obtain ⟨i, hi, rfl⟩ := List.mem_map.1 h
    exact Or.inr ⟨rfl, Or.inr ⟨rfl, (mem_range'_one.1 hi).1⟩⟩
  · exact (List.pairwise_lt_range' 1).imp fun h => Or.inr ⟨rfl, Or.inr ⟨rfl, h⟩⟩

theorem allocatorSteps_pairwise (s : Sweep) (p : Nat) (a : String) :
    (s.allocatorSteps p a).Pairwise Step.Before := by
  rw [allocatorSteps, List.pairwise_cons, List.pairwise_flatMap]
  refine ⟨?_, fun n _ => s.pairSteps_pairwise p a n, ?_⟩
  · intro step h
    obtain ⟨n, hn, h⟩ := List.mem_flatMap.1 h
    obtain ⟨hp, hr⟩ := rank_of_mem_pairSteps h
    exact Or.inr ⟨hp.symm, Or.inl (hr ▸ (mem_range'_one.1 hn).1)⟩
  · refine (List.pairwise_lt_range' 1).imp fun {n m} hnm x hx y hy => ?_
    obtain ⟨hxp, hxn⟩ := rank_of_mem_pairSteps hx
    obtain ⟨hyp, hyn⟩ := rank_of_mem_pairSteps hy
    exact Or.inr ⟨hxp.trans hyp.symm, Or.inl (by omega)⟩

/-- The plan goes up in the order of the steps. -/
theorem plan_pairwise (s : Sweep) : s.plan.Pairwise Step.Before := by
  rw [plan, List.pairwise_flatMap]
  refine ⟨fun row _ => s.allocatorSteps_pairwise row.2 row.1, ?_⟩
  -- names may repeat, positions do not
  have hrows : s.allocators.zipIdx.Pairwise fun x y => x.2 < y.2 := by
    rw [← List.pairwise_map (f := Prod.snd), List.zipIdx_map_snd]
    exact List.pairwise_lt_range' 1
  refine hrows.imp fun {row other} h x hx y hy => Or.inl ?_
  rw [rank_of_mem_allocatorSteps hx, rank_of_mem_allocatorSteps hy]
  exact h

theorem Step.Before.irrefl (x : Step) : ¬ x.Before x := by
  unfold Step.Before
  omega

theorem Step.Before.asymm {x y : Step} (h : x.Before y) : ¬ y.Before x := by
  unfold Step.Before at *
  omega

theorem nodup_of_pairwise_before {steps : List Step} (h : steps.Pairwise Step.Before) :
    steps.Nodup := by
  apply h.imp
  rintro x y hlt rfl
  exact Step.Before.irrefl x hlt

/-- The plan holds no step twice. -/
theorem plan_nodup (s : Sweep) : s.plan.Nodup := nodup_of_pairwise_before s.plan_pairwise

/-- In front of a step of the plan stand the planned steps that come before it. -/
theorem mem_iff_before {s : Sweep} {done rest : List Step} {step x : Step}
    (h : s.plan = done ++ step :: rest) : x ∈ done ↔ s.Planned x ∧ x.Before step := by
  have hsorted := h ▸ s.plan_pairwise
  rw [List.pairwise_append, List.pairwise_cons] at hsorted
  obtain ⟨-, ⟨hrest, -⟩, hdone⟩ := hsorted
  constructor
  · intro hx
    refine ⟨mem_plan.1 ?_, hdone x hx step List.mem_cons_self⟩
    rw [h]
    exact List.mem_append_left _ hx
  · rintro ⟨hx, hlt⟩
    rw [← mem_plan, h, List.mem_append, List.mem_cons] at hx
    rcases hx with hx | rfl | hx
    · exact hx
    · exact absurd hlt (Step.Before.irrefl x)
    · exact absurd hlt (hrest x hx).asymm

/-- The step in front of a trial: the trial of the iteration before, or the log is opened. -/
def Step.beforeTrial (p : Nat) (a : String) (n i : Nat) : Step :=
  if i = 1 then .log p a n else .trial p a n (i - 1)

theorem Step.rank_beforeTrial (p : Nat) (a : String) (n i : Nat) :
    (beforeTrial p a n i).rank = (p, n, i - 1) := by
  unfold beforeTrial
  split
  · rw [rank, show i - 1 = 0 by omega]
  · rfl

/-- What stands right in front of a trial in the plan. -/
theorem eq_append_beforeTrial {s : Sweep} {done rest : List Step} {p n i : Nat} {a : String}
    (h : s.plan = done ++ .trial p a n i :: rest) :
    ∃ front, done = front ++ [.beforeTrial p a n i] := by
  obtain ⟨hp, hn, hi⟩ := planned_of_plan_eq h
  have hrank := Step.rank_beforeTrial p a n i
  -- it is planned and comes before the trial
  have hmem : Step.beforeTrial p a n i ∈ done := by
    refine (mem_iff_before h).2 ⟨?_, Or.inr ⟨?_, Or.inr ⟨?_, ?_⟩⟩⟩
    · unfold Step.beforeTrial
      split
      · exact ⟨hp, hn⟩
      · exact ⟨hp, hn, by omega⟩
    all_goals rw [hrank]
    · rfl
    · rfl
    · show i - 1 < i
      omega
  obtain ⟨front, behind, rfl⟩ := List.append_of_mem hmem
  cases behind with
  | nil => exact ⟨front, rfl⟩
  | cons x behind =>
      -- nothing fits between a trial and the step in front of it
      have hx : x ∈ front ++ .beforeTrial p a n i :: x :: behind := by simp
      have hlt := ((mem_iff_before h).1 hx).2
      have hsorted := s.plan_pairwise
      rw [h, List.append_assoc, List.pairwise_append] at hsorted
      have hgt := (List.pairwise_cons.1 hsorted.2.1).1 x (by simp)
      unfold Step.Before at hlt hgt
      rw [hrank] at hgt
      simp only [Step.rank] at hlt hgt
      omega

end BenchSweep.Sweep
