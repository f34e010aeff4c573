import Mathlib.Algebra.Group.Nat.Defs
import BenchSweep.Proofs.Runner.Observed
import BenchSweep.Proofs.Sweep.Progression
import BenchSweep.Report

/-!
# The calls of a sweep

A runner is watched while a sweep goes on, and what is seen is compared with the three
loops of the sweep written out as lists.

* `Sweep.run_mapState` : runners that do the same to the outside run the same sweeps.
* `Sweep.run_observed` : watching a runner changes nothing.
* `Sweep.Watched` : what a watched sweep shows behind every step.
* `Sweep.run_enumerates` : what a sweep that goes through calls, tells and reports.
-/

namespace BenchSweep

variable {σ τ : Type}

namespace Sweep

/-! ## The same sweep with another runner -/

/-- A sweep that was run, with its state seen through a function. -/
def Ran.mapState (f : τ → σ) (ran : Ran τ) : Ran σ where
  verdict := ran.verdict
  progress := ran.progress
  tree := ran.tree
  state := f ran.state

/-- A desk, with its state seen through a function. -/
def Desk.mapState (f : τ → σ) (d : Desk τ) : Desk σ := ⟨d.tree, f d.state, d.log⟩

section

variable {s : Sweep} {recipe : Recipe} {inner : Runner σ} {outer : Runner τ} {f : τ → σ}
  {reply : Step → Reply} {d d' : Desk τ} {step : Step} {steps : List Step} {e : Failure}

/-- The attempt of the one runner is that of the other, seen through the function. -/
theorem run_desk_mapState (hf : inner.Simulates f outer) {trial : Trial} {timeout : Timeout}
    {left : Attempt τ} (h : outer.run trial timeout d.log d.tree d.state = left) :
    inner.run trial timeout (d.mapState f).log (d.mapState f).tree (d.mapState f).state =
      left.mapState f :=
  h ▸ hf trial timeout d.log d.tree d.state

theorem Takes.mapState (hf : inner.Simulates f outer)
    (h : Takes s recipe outer reply d step d') :
    Takes s recipe inner reply (d.mapState f) step (d'.mapState f) := by
  cases h with
  | folder h => exact .folder h
  | log h => exact .log h
  | trial h hv hl => exact .trial (run_desk_mapState hf h) hv hl

theorem Taken.mapState (hf : inner.Simulates f outer)
    (h : Taken s recipe outer reply d steps d') :
    Taken s recipe inner reply (d.mapState f) steps (d'.mapState f) := by
  induction h with
  | nil => exact .nil
  | cons h _ ih => exact .cons (h.mapState hf) ih

/-- A step that goes well with the one runner goes well with the other. -/
theorem Takes.exists_of_mapState {d' : Desk σ} (hf : inner.Simulates f outer)
    (h : Takes s recipe inner reply (d.mapState f) step d') :
    ∃ d'' : Desk τ, Takes s recipe outer reply d step d'' ∧ d''.mapState f = d' := by
  cases h with
  | folder h => exact ⟨_, .folder h, rfl⟩
  | log h => exact ⟨_, .log h, rfl⟩
  | trial h hv hl =>
      rw [run_desk_mapState hf rfl] at h
      subst h
      exact ⟨_, .trial rfl hv hl, rfl⟩

theorem Taken.exists_of_mapState {d' : Desk σ} (hf : inner.Simulates f outer)
    (h : Taken s recipe inner reply (d.mapState f) steps d') :
    ∃ d'' : Desk τ, Taken s recipe outer reply d steps d'' ∧ d''.mapState f = d' := by
  generalize hd : d.mapState f = start at h
  induction h generalizing d with
  | nil => exact ⟨d, .nil, hd⟩
  | cons h _ ih =>
      subst hd
      obtain ⟨d₁, hstep, hd₁⟩ := h.exists_of_mapState hf
      obtain ⟨d₂, hsteps, hd₂⟩ := ih hd₁
      exact ⟨d₂, .cons hstep hsteps, hd₂⟩

theorem Fails.mapState (hf : inner.Simulates f outer) (h : Fails s recipe outer d step e d') :
    Fails s recipe inner (d.mapState f) step e (d'.mapState f) := by
  cases h with
  | folder h => exact .folder h
  | log h => exact .log h
  | trial h hv => exact .trial (run_desk_mapState hf h) hv

/-- Runners that do the same to the outside run the same sweeps. -/
theorem run_mapState (hf : inner.Simulates f outer) (s : Sweep) (recipe : Recipe) (tree : Tree)
    (state : τ) :
    s.run recipe inner tree (f state) = (s.run recipe outer tree state).mapState f := by
  by_cases hi : s.iterations = 0
  · simp only [run_eq, after_course_of_no_iterations hi]
    rfl
  -- however the one sweep ends, the other ends likewise
  rcases run_cases s recipe outer tree state with
    ⟨e, hopen⟩ | ⟨made, hopen, ⟨reply, d, h⟩ | ⟨reply, done, step, rest, d, e, d', hplan, h, he⟩⟩
  · rw [run_of_open_error hi hopen, run_of_open_error hi hopen]
    rfl
  · have hinner : Taken s recipe inner reply (.start made (f state)) s.plan (d.mapState f) :=
      h.mapState hf
    rw [run_of_taken hi hopen h, run_of_taken hi hopen hinner]
    rfl
  · have hinner : Taken s recipe inner reply (.start made (f state)) done (d.mapState f) :=
      h.mapState hf
    rw [run_of_fails hi hopen hplan h he, run_of_fails hi hopen hplan hinner (he.mapState hf)]
    rfl

end

/-- Watching the runner of a sweep changes nothing. -/
theorem run_observed (s : Sweep) (recipe : Recipe) (runner : Runner σ) (tree : Tree) (state : σ)
    (seen : List Observation) :
    s.run recipe runner tree state =
      (s.run recipe runner.observed tree (state, seen)).mapState Prod.fst :=
  run_mapState runner.simulates_observed s recipe tree (state, seen)

/-- What is seen of the calls of a sweep. -/
def observations (s : Sweep) (recipe : Recipe) (runner : Runner σ) (tree : Tree) (state : σ) :
    List Observation :=
  (s.run recipe runner.observed tree (state, [])).state.2

/-! ## The loops written out -/

/-- What is seen of the call for a trial that was carried out.  The first trial on a number of
threads is given the log that was opened for them, and every other one the log that the
trial before it handed back. -/
def observation (s : Sweep) (recipe : Recipe) (reply : Step → Reply) (position : Nat)
    (allocator : String) (threads iteration : Nat) : Observation where
  trial :=
    { allocator, threads, iteration
      program := s.directory.join (s.benchmark ++ "-" ++ allocator)
      args := Text.decimalText threads :: recipe.extraArgs }
  timeout := .ofSeconds recipe.timeLimit
  log :=
    if iteration = 1 then s.archive.logPath allocator s.benchmark threads
    else (reply (.trial position allocator threads (iteration - 1))).log
  verdict := .ok (reply (.trial position allocator threads iteration)).outcome
  left := (reply (.trial position allocator threads iteration)).log

/-- The calls of a sweep that goes through: allocator by allocator, thread count by thread
count, iteration by iteration. -/
def calls (s : Sweep) (recipe : Recipe) (reply : Step → Reply) : List Observation :=
  s.allocators.zipIdx.flatMap fun row =>
    (List.range' 1 s.maxThreads).flatMap fun threads =>
      (List.range' 1 s.iterations).map fun iteration =>
        s.observation recipe reply row.2 row.1 threads iteration

/-- What a sweep that goes through tells. -/
def story (s : Sweep) (recipe : Recipe) (reply : Step → Reply) : List Progress :=
  s.allocators.zipIdx.flatMap fun row =>
    .allocator row.1 ::
      (List.range' 1 s.maxThreads).flatMap fun threads =>
        .threads row.1 threads ::
          (List.range' 1 s.iterations).flatMap fun iteration =>
            let trial := s.trial recipe row.1 threads iteration
            [.started trial recipe.timeLimit,
              .finished trial (reply (.trial row.2 row.1 threads iteration)).outcome]

/-- The logs of a sweep that goes through. -/
def logPaths (s : Sweep) : List Path :=
  s.allocators.flatMap fun allocator =>
    (List.range' 1 s.maxThreads).map fun threads =>
      s.archive.logPath allocator s.benchmark threads

/-- What is seen of the calls in a step that goes well. -/
def seen (s : Sweep) (recipe : Recipe) (reply : Step → Reply) : Step → List Observation
  | .trial p a n i => [s.observation recipe reply p a n i]
  | _ => []

theorem calls_eq (s : Sweep) (recipe : Recipe) (reply : Step → Reply) :
    s.calls recipe reply = s.plan.flatMap (s.seen recipe reply) := by
  simp only [calls, flatMap_plan, List.map_eq_flatMap, seen, List.nil_append]

theorem story_eq (s : Sweep) (recipe : Recipe) (reply : Step → Reply) :
    s.story recipe reply = s.plan.flatMap (s.told recipe reply) := by
  rw [flatMap_plan]
  rfl

theorem logPaths_eq (s : Sweep) : s.logPaths = s.plan.flatMap s.opened := by
  have hrows : s.allocators.zipIdx.map Prod.fst = s.allocators := List.zipIdx_map_fst 0 s.allocators
  calc
    s.logPaths = (s.allocators.zipIdx.map Prod.fst).flatMap fun a =>
        (List.range' 1 s.maxThreads).map fun n => s.archive.logPath a s.benchmark n := by
      rw [hrows, logPaths]
    _ = s.plan.flatMap s.opened := by
      have hnil (l : List Nat) : l.flatMap (fun _ => ([] : List Path)) = [] :=
        List.flatMap_eq_nil_iff.2 fun _ _ => rfl
      rw [List.flatMap_map, flatMap_plan]
      simp only [opened, hnil, List.map_eq_flatMap, List.nil_append, List.append_nil]

/-! ## What is seen of a sweep -/

/-- The log that is open behind a step, if it is known from the step. -/
def logBehind (s : Sweep) (reply : Step → Reply) : Step → Option Path
  | .folder _ _ => none
  | .log _ a n => some (s.archive.logPath a s.benchmark n)
  | .trial p a n i => some (reply (.trial p a n i)).log

theorem logBehind_beforeTrial (s : Sweep) (recipe : Recipe) (reply : Step → Reply) (p : Nat)
    (a : String) (n i : Nat) :
    s.logBehind reply (.beforeTrial p a n i) = some (s.observation recipe reply p a n i).log := by
  unfold Step.beforeTrial observation
  split <;> rfl

section

variable {s : Sweep} {recipe : Recipe} {runner : Runner σ} {reply : Step → Reply} {tree made : Tree}
  {state : σ} {d d' : Desk (σ × List Observation)} {done rest : List Step} {step : Step}

/-- What the desk of a watched sweep shows behind some steps: all their observations, and the
log that the last of them left open.  A runner that keeps its logs has left each where it was
opened. -/
structure Watched (s : Sweep) (recipe : Recipe) (runner : Runner σ) (reply : Step → Reply)
    (done : List Step) (d : Desk (σ × List Observation)) : Prop where
  seen : d.state.2 = done.flatMap (s.seen recipe reply)
  log : ∀ path, done.getLast?.bind (s.logBehind reply) = some path → d.log.path = path
  kept : runner.KeepsLog → ∀ {p a n i}, .trial p a n i ∈ done →
    (reply (.trial p a n i)).log = s.archive.logPath a s.benchmark n

/-- The log that a trial is given. -/
theorem Watched.path_of_trial {p n i : Nat} {a : String}
    (h : Watched s recipe runner reply done d) (hplan : s.plan = done ++ .trial p a n i :: rest) :
    d.log.path = (s.observation recipe reply p a n i).log := by
  apply h.log
  obtain ⟨front, rfl⟩ := eq_append_beforeTrial hplan
  rw [List.getLast?_concat]
  exact s.logBehind_beforeTrial recipe reply p a n i

/-- A runner that keeps its logs is given the log that was opened. -/
theorem Watched.log_of_keepsLog {p n i : Nat} {a : String}
    (h : Watched s recipe runner reply done d) (hkeeps : runner.KeepsLog)
    (hbefore : .beforeTrial p a n i ∈ done) :
    (s.observation recipe reply p a n i).log = s.archive.logPath a s.benchmark n := by
  rw [observation]
  dsimp only
  split
  · rfl
  · rename_i hi
    rw [Step.beforeTrial, if_neg hi] at hbefore
    exact h.kept hkeeps hbefore

theorem Watched.takes (h : Watched s recipe runner reply done d)
    (hplan : s.plan = done ++ step :: rest)
    (hstep : Takes s recipe runner.observed reply d step d') :
    Watched s recipe runner reply (done ++ [step]) d' := by
  cases hstep with
  | folder _ =>
      refine ⟨by simp [h.seen, Sweep.seen], by simp [logBehind], fun hkeeps p a n i hmem => ?_⟩
      exact h.kept hkeeps (by simpa using hmem)
  | log hlog =>
      refine ⟨by simp [h.seen, Sweep.seen], by simp [logBehind, (Archive.openLog_ok hlog).2],
        fun hkeeps p a n i hmem => ?_⟩
      exact h.kept hkeeps (by simpa using hmem)
  | @trial p a n i left hleft hv hl =>
      -- the call that is added was given the log that the step before left open
      have hpath := h.path_of_trial hplan
      subst hleft
      simp only [Runner.observed] at hv hl
      refine ⟨?_, by simp [logBehind, Runner.observed, hl], fun hkeeps q b m j hmem => ?_⟩
      · show d.state.2 ++ _ = _
        rw [List.flatMap_append, h.seen, hpath, hv, hl]
        rfl
      · rcases List.mem_append.1 hmem with hmem | hmem
        · exact h.kept hkeeps hmem
        · obtain ⟨rfl, rfl, rfl, rfl⟩ : q = p ∧ b = a ∧ m = n ∧ j = i := by simpa using hmem
          obtain ⟨front, rfl⟩ := eq_append_beforeTrial hplan
          rw [← hl, hkeeps, hpath]
          exact h.log_of_keepsLog hkeeps (by simp)

/-- Steps of a watched sweep that go well. -/
theorem Watched.of_taken
    (h : Taken s recipe runner.observed reply (.start made (state, [])) done d)
    (hplan : s.plan = done ++ rest) : Watched s recipe runner reply done d :=
  h.invariant (fun hplan hd hstep => hd.takes hplan hstep)
    (show s.plan = [] ++ (done ++ rest) from hplan) ⟨rfl, by simp, by simp⟩

end

/-- What is seen of a sweep whose steps all go well. -/
theorem observations_of_taken {d : Desk σ} (hi : s.iterations ≠ 0)
    (hopen : Archive.open? tree s.directory = .ok (made, s.archive))
    (h : Taken s recipe runner reply (.start made state) s.plan d) :
    s.observations recipe runner tree state = s.calls recipe reply := by
  have hstart : Taken s recipe runner reply
      ((Desk.start made (state, ([] : List Observation))).mapState Prod.fst) s.plan d := h
  obtain ⟨d', hwatched, -⟩ := hstart.exists_of_mapState runner.simulates_observed
  rw [observations, run_of_taken hi hopen hwatched, calls_eq]
  exact (Watched.of_taken hwatched (List.append_nil s.plan).symm).seen

/-- The failed calls are the failing steps. -/
theorem countP_calls (s : Sweep) (recipe : Recipe) (reply : Step → Reply) :
    (s.calls recipe reply).countP Observation.failed = s.plan.countP (failing reply) := by
  rw [calls_eq]
  induction s.plan with
  | nil => rfl
  | cons step steps ih =>
      rw [List.flatMap_cons, List.countP_append, ih, List.countP_cons, Nat.add_comm]
      cases step with
      | folder => rfl
      | log => rfl
      | trial =>
          rw [seen, List.countP_singleton]
          rfl

/-- What a sweep that goes through calls, tells and counts, by the replies of its runner. -/
theorem exists_reply_of_run_ok {s : Sweep} {recipe : Recipe} {runner : Runner σ} {tree : Tree}
    {state : σ} {tally : Tally} (h : (s.run recipe runner tree state).verdict = .ok tally) :
    ∃ reply : Step → Reply,
      s.observations recipe runner tree state = s.calls recipe reply ∧
      (s.run recipe runner tree state).progress = s.story recipe reply ∧
      tally.failures = min countCap ((s.calls recipe reply).countP Observation.failed) := by
  have hwatch := s.run_observed recipe runner tree state []
  rw [hwatch] at h ⊢
  obtain ⟨hi, made, hopen, reply, d, ht⟩ := taken_of_run_ok h
  have hd := Watched.of_taken ht (List.append_nil s.plan).symm
  rw [observations, run_of_taken hi hopen ht]
  rw [run_of_taken hi hopen ht] at h
  cases h
  refine ⟨reply, hd.seen.trans (s.calls_eq recipe reply).symm, (s.story_eq recipe reply).symm, ?_⟩
  rw [countP_calls, addCapped, Nat.zero_add]

/-- A sweep that goes through calls its runner for every allocator in the list, every thread
count from one up and every iteration, in this order and whatever the outcomes are; it tells
of these calls and nothing else, and its report lists the logs once each and counts the calls
that failed.  A call is given the log that was opened for its allocator and threads, as long
as the runner does not hand back another one. -/
theorem run_enumerates (s : Sweep) (recipe : Recipe) (runner : Runner σ) (tree : Tree) (state : σ)
    (tally : Tally) (h : (s.run recipe runner tree state).verdict = .ok tally) :
    ∃ reply : Step → Reply,
      s.observations recipe runner tree state = s.calls recipe reply ∧
      (s.run recipe runner tree state).progress = s.story recipe reply ∧
      (∀ span, Report.ofTally s tally span =
        { benchmark := s.benchmark
          directory := s.directory
          iterations := s.iterations
          allocators := s.allocators
          maxThreads := s.maxThreads
          span
          logs := s.logPaths
          failures := min (2 ^ 32 - 1) ((s.calls recipe reply).countP Observation.failed) }) ∧
      (runner.KeepsLog → ∀ call ∈ s.calls recipe reply,
        call.log = s.archive.logPath call.trial.allocator s.benchmark call.trial.threads) := by
  have hwatch := s.run_observed recipe runner tree state []
  rw [hwatch] at h ⊢
  unfold observations
  obtain ⟨hi, made, hopen, reply, d, ht⟩ := taken_of_run_ok h
  have hd := Watched.of_taken ht (List.append_nil s.plan).symm
  rw [run_of_taken hi hopen ht] at h ⊢
  cases h
  refine ⟨reply, ?_, ?_, fun span => ?_, fun hkeeps call hcall => ?_⟩
  · rw [calls_eq]
    exact hd.seen
  · rw [story_eq]
    rfl
  · rw [countP_calls, logPaths_eq]
    simp [Report.ofTally, addCapped, countCap]
  · rw [calls_eq, List.mem_flatMap] at hcall
    obtain ⟨step, hstep, hcall⟩ := hcall
    cases step with
    | folder => cases hcall
    | log => cases hcall
    | trial p a n i =>
        -- the step in front of the trial says which log the call was given
        obtain rfl := List.mem_singleton.1 hcall
        obtain ⟨front, rest, hplan⟩ := List.append_of_mem hstep
        obtain ⟨front, rfl⟩ := eq_append_beforeTrial hplan
        apply hd.log_of_keepsLog hkeeps
        simp [hplan]

/-- A sweep over an allocator that is listed twice, on up to two threads with two iterations
each; every other trial fails. -/
theorem run_enumerates_twice :
    let s : Sweep := ⟨⟨"."⟩, "larson", ["libc", "libc"], 2, 2⟩
    let recipe : Recipe := ⟨10, ["7"]⟩
    let runner := Runner.scripted [⟨["x"], none, .success⟩, ⟨[], none, .exited 2⟩]
    (s.run recipe runner Tree.bare 0).verdict = .ok ⟨s.logPaths, 4⟩ ∧
      ∃ reply : Step → Reply,
        s.observations recipe runner Tree.bare 0 = s.calls recipe reply ∧
        (s.run recipe runner Tree.bare 0).progress = s.story recipe reply ∧
        ∀ call ∈ s.calls recipe reply,
          call.log = s.archive.logPath call.trial.allocator s.benchmark call.trial.threads := by
  intro s recipe runner
  have h : (s.run recipe runner Tree.bare 0).verdict = .ok ⟨s.logPaths, 4⟩ := by decide +kernel
  obtain ⟨reply, hcalls, hstory, -, hlogs⟩ := run_enumerates s recipe runner Tree.bare 0 _ h
  exact ⟨h, reply, hcalls, hstory, hlogs (Runner.keepsLog_scripted _)⟩

/-- The second iteration is given the log that the first one has left in the place of the log that
was opened for both. -/
theorem run_hands_on_swapped_log :
    let s : Sweep := ⟨⟨"."⟩, "larson", ["libc"], 1, 2⟩
    let recipe : Recipe := ⟨10, []⟩
    let runner := Runner.swapping ⟨⟨"elsewhere"⟩, ⟨.device .null, 0⟩⟩
    (s.run recipe runner Tree.bare ()).verdict = .ok ⟨s.logPaths, 0⟩ ∧
      ∃ call ∈ s.observations recipe runner Tree.bare (),
        call.log ≠ s.archive.logPath call.trial.allocator s.benchmark call.trial.threads := by
  decide +kernel

end Sweep

end BenchSweep
