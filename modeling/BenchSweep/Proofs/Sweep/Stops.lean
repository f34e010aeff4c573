import BenchSweep.Proofs.Sweep.Calls
import BenchSweep.Proofs.Sweep.Contents

/-!
# Sweeps that stop

A sweep that fails stops at one of its steps, or before the first.

* `Sweep.StopsAt` : where a sweep stopped, by what it told, called and met.
* `Sweep.Stopped` : the same together with what was told and called before.
* `Sweep.foldersBefore`, `Sweep.logsBefore` : what a sweep with a script has filed by then.
* `Sweep.run_stops` : every sweep that fails stops somewhere, and has done what comes before.
-/

namespace BenchSweep

open Runner

/-! ## Trials that came to an end -/

/-- The trial that is told to have ended, with its outcome. -/
def Progress.finished? : Progress → Option (Trial × Outcome)
  | finished trial outcome => some (trial, outcome)
  | _ => none

/-- The trial that a call was for, with its outcome if there is one. -/
def Observation.finished? (call : Observation) : Option (Trial × Outcome) :=
  match call.verdict with
  | .ok outcome => some (call.trial, outcome)
  | .error _ => none

namespace Sweep

/-! ## Where a sweep stops -/

/-- Did the sweep stop with a failure at a step, or before its first step?  Of its calls,
those that are `returned` came back with outcomes. -/
def StopsAt {σ : Type} (s : Sweep) (recipe : Recipe) (tree : Tree) (ran : Ran σ)
    (calls returned : List Observation) (failure : Failure) : Option Step → Prop
  | none =>
    ran.progress = [] ∧ calls = [] ∧ ran.tree = tree ∧
      Archive.open? tree s.directory = .error failure
  | some (.folder p a) =>
    s.Planned (.folder p a) ∧ ran.progress.getLast? = some (.allocator a) ∧ calls = returned ∧
      s.archive.ensureFolder ran.tree a = .error failure
  | some (.log p a n) =>
    s.Planned (.log p a n) ∧ ran.progress.getLast? = some (.threads a n) ∧ calls = returned ∧
      s.archive.openLog ran.tree a s.benchmark n = .error failure
  | some (.trial p a n i) =>
    s.Planned (.trial p a n i) ∧
      ran.progress.getLast? = some (.started (s.trial recipe a n i) recipe.timeLimit) ∧
      ∃ call, calls = returned ++ [call] ∧ call.trial = s.trial recipe a n i ∧
        call.verdict = .error failure

/-- A sweep that stopped has told the beginning of the story of a sweep that goes through, and
the calls that returned are the first of its calls; what is told to have ended are these calls
with their outcomes. -/
structure Stopped {σ : Type} (s : Sweep) (recipe : Recipe) (runner : Runner σ) (tree : Tree)
    (state : σ) (failure : Failure) (reply : Step → Reply) (returned : List Observation)
    (stop : Option Step) : Prop where
  story : (s.run recipe runner tree state).progress <+: s.story recipe reply
  calls : returned <+: s.calls recipe reply
  finished : (s.run recipe runner tree state).progress.filterMap Progress.finished? =
    (s.observations recipe runner tree state).filterMap Observation.finished?
  count : (s.run recipe runner tree state).progress.countP (·.finished?.isSome) =
    (s.observations recipe runner tree state).countP (·.finished?.isSome)
  stops : s.StopsAt recipe tree (s.run recipe runner tree state)
    (s.observations recipe runner tree state) returned failure stop

/-- The folders that were seen to before a step. -/
def foldersBefore (s : Sweep) : Step → String → Prop
  | .folder p _ => fun b => b ∈ s.allocators.take p
  | .log p _ _ => fun b => b ∈ s.allocators.take (p + 1)
  | .trial p _ _ _ => fun b => b ∈ s.allocators.take (p + 1)

/-- Is a pair of an allocator, by its position, and a number of threads done with when a step
begins? -/
def Step.Past (step : Step) (position threads : Nat) : Prop :=
  position < step.rank.1 ∨ position = step.rank.1 ∧ threads < step.rank.2.1

/-- What a trial that failed has left in the log of its pair: the output of the iterations
before, and what the failing call wrote. -/
def cutOff (s : Sweep) (cues : List Cue) (count : Nat) : Step → String → Nat → List UInt8 → Prop
  | .trial p a n i => fun b m content =>
    (b = a ∧ m = n) ∧
      content = s.output cues count p n (i - 1) ++ (cueAt cues (count + s.turn p n i)).spoken
  | _ => fun _ _ _ => False

/-- The logs that a sweep with a script has left when it stops at a step: those of the pairs
that are done with hold all their output. -/
def logsBefore (s : Sweep) (cues : List Cue) (count : Nat) (step : Step) (b : String) (m : Nat)
    (content : List UInt8) : Prop :=
  (∃ q, step.Past q m ∧ s.Planned (.log q b m) ∧ content = s.output cues count q m s.iterations) ∨
    s.cutOff cues count step b m content

/-! ## What was told and called -/

section

variable {σ : Type} {s : Sweep} {recipe : Recipe} {runner : Runner σ} {reply : Step → Reply}
  {tree made : Tree} {state : σ} {d d' : Desk (σ × List Observation)} {done rest : List Step}
  {step : Step} {f : Failure}

/-- Steps that go well tell of the calls that are seen of them. -/
theorem filterMap_told (steps : List Step) :
    (steps.flatMap (s.told recipe reply)).filterMap Progress.finished? =
      (steps.flatMap (s.seen recipe reply)).filterMap Observation.finished? := by
  induction steps with
  | nil => rfl
  | cons step steps ih =>
      rw [List.flatMap_cons, List.flatMap_cons, List.filterMap_append, List.filterMap_append, ih]
      cases step <;> rfl

theorem finished?_announced (s : Sweep) (recipe : Recipe) (step : Step) :
    (s.announced recipe step).finished? = none := by
  cases step <;> rfl

/-- What a sweep tells up to a step is the beginning of its story. -/
theorem told_prefix_story (hplan : s.plan = done ++ step :: rest) :
    done.flatMap (s.told recipe reply) ++ [s.announced recipe step] <+: s.story recipe reply := by
  rw [story_eq, hplan, List.flatMap_append, List.flatMap_cons, List.prefix_append_right_inj]
  exact List.cons_prefix_cons.2 ⟨rfl, List.nil_prefix⟩

/-- What is seen up to a step are the first calls of a sweep. -/
theorem seen_prefix_calls (hplan : s.plan = done ++ step :: rest) :
    done.flatMap (s.seen recipe reply) <+: s.calls recipe reply := by
  rw [calls_eq, hplan, List.flatMap_append]
  exact List.prefix_append _ _

/-- A sweep without an archive stops before its first step. -/
theorem stopped_of_open_error (hi : s.iterations ≠ 0)
    (hopen : Archive.open? tree s.directory = .error f) :
    s.Stopped recipe runner tree state f reply [] none := by
  have hcalls : s.observations recipe runner tree state = [] := by
    rw [observations, run_of_open_error hi hopen]
  have hrun : s.run recipe runner tree state = ⟨.error f, [], tree, state⟩ :=
    run_of_open_error hi hopen
  refine ⟨?_, List.nil_prefix, ?_, ?_, ?_⟩ <;> rw [hrun]
  · exact List.nil_prefix
  · rw [hcalls]
    rfl
  · rw [hcalls]
    rfl
  · exact ⟨rfl, hcalls, rfl, hopen⟩

/-- A step that fails adds no call that came back. -/
theorem Fails.filterMap_finished? (hf : Fails s recipe runner.observed d step f d') :
    d'.state.2.filterMap Observation.finished? = d.state.2.filterMap Observation.finished? := by
  cases hf with
  | folder => rfl
  | log => rfl
  | @trial p a n i left _ hleft hv =>
      obtain ⟨call, hstate, -, hverdict⟩ := exists_call_of_observed hleft
      have hnone : call.finished? = none := by
        rw [Observation.finished?, hverdict, hv]
      show left.state.2.filterMap _ = _
      rw [hstate, List.filterMap_append]
      simp [hnone]

/-- A sweep stops at a step that fails. -/
theorem stopped_of_fails (hi : s.iterations ≠ 0)
    (hopen : Archive.open? tree s.directory = .ok (made, s.archive))
    (hplan : s.plan = done ++ step :: rest)
    (h : Taken s recipe runner.observed reply (Desk.start made (state, [])) done d)
    (hf : Fails s recipe runner.observed d step f d') :
    s.Stopped recipe runner tree state f reply (done.flatMap (s.seen recipe reply))
      (some step) := by
  have hseen := (Watched.of_taken h hplan).seen
  have hplanned := planned_of_plan_eq hplan
  have hrun := s.run_observed recipe runner tree state []
  have hobserved := run_of_fails hi hopen hplan h hf
  have hcalls : s.observations recipe runner tree state = d'.state.2 := by
    rw [observations, hobserved]
  have hprogress : (s.run recipe runner tree state).progress =
      done.flatMap (s.told recipe reply) ++ [s.announced recipe step] := by
    rw [hrun, hobserved]
    rfl
  have htree : (s.run recipe runner tree state).tree = d'.tree := by
    rw [hrun, hobserved]
    rfl
  have hreturned : d'.state.2.filterMap Observation.finished? =
      (done.flatMap (s.seen recipe reply)).filterMap Observation.finished? := by
    rw [hf.filterMap_finished?, hseen]
  have hfinished : (s.run recipe runner tree state).progress.filterMap Progress.finished? =
      (s.observations recipe runner tree state).filterMap Observation.finished? := by
    rw [hprogress, hcalls, hreturned, List.filterMap_append, filterMap_told]
    simp [finished?_announced]
  have hlast : (s.run recipe runner tree state).progress.getLast? =
      some (s.announced recipe step) := by
    rw [hprogress, List.getLast?_concat]
  refine ⟨hprogress ▸ told_prefix_story hplan, seen_prefix_calls hplan, hfinished, ?_, ?_⟩
  · rw [← List.length_filterMap_eq_countP, ← List.length_filterMap_eq_countP, hfinished]
  · cases hf with
    | folder hfolder =>
        refine ⟨hplanned, hlast, hcalls.trans hseen, ?_⟩
        rw [htree]
        exact hfolder
    | log hlog =>
        refine ⟨hplanned, hlast, hcalls.trans hseen, ?_⟩
        rw [htree]
        exact hlog
    | trial hleft hv =>
        obtain ⟨call, hstate, htrial, hverdict⟩ := exists_call_of_observed hleft
        refine ⟨hplanned, hlast, call, ?_, htrial, hverdict.trans hv⟩
        rw [hcalls, ← hseen]
        exact hstate

end

/-! ## What was filed -/

section

variable {s : Sweep} {recipe : Recipe} {cues : List Cue} {reply : Step → Reply} {D : Location}
  {tree made : Tree} {count p q m n i : Nat} {a b : String} {d d' : Desk Nat}
  {done rest : List Step} {step : Step} {f : Failure} {content : List UInt8}

/-- The allocators in front of a position. -/
theorem mem_take_iff {allocators : List String} :
    b ∈ allocators.take p ↔ ∃ q, q < p ∧ allocators[q]? = some b := by
  simp only [List.mem_iff_getElem?, List.getElem?_take]
  constructor
  · rintro ⟨q, hq⟩
    split at hq
    · exact ⟨q, ‹_›, hq⟩
    · cases hq
  · rintro ⟨q, hlt, hq⟩
    exact ⟨q, by rwa [if_pos hlt]⟩

/-- The folders that were seen to in front of a step of the plan. -/
theorem folder_mem_iff (hplan : s.plan = done ++ step :: rest) :
    (∃ q, .folder q b ∈ done) ↔ s.foldersBefore step b := by
  have hplanned := planned_of_plan_eq hplan
  simp only [mem_iff_before hplan]
  cases step with
  | folder p a =>
      simp only [foldersBefore, mem_take_iff, Planned, Step.Before, Step.rank]
      exact exists_congr fun q => ⟨fun h => ⟨by omega, h.1⟩, fun h => ⟨h.2, by omega⟩⟩
  | log p a n =>
      have hn := hplanned.2.1
      simp only [foldersBefore, mem_take_iff, Planned, Step.Before, Step.rank]
      exact exists_congr fun q => ⟨fun h => ⟨by omega, h.1⟩, fun h => ⟨h.2, by omega⟩⟩
  | trial p a n i =>
      have hn := hplanned.2.1.1
      simp only [foldersBefore, mem_take_iff, Planned, Step.Before, Step.rank]
      exact exists_congr fun q => ⟨fun h => ⟨by omega, h.1⟩, fun h => ⟨h.2, by omega⟩⟩

/-- All iterations of a pair that is done with stand in front of a step. -/
theorem trial_mem_iff (hplan : s.plan = done ++ step :: rest) (hlog : s.Planned (.log q b m))
    (hpast : step.Past q m) : .trial q b m i ∈ done ↔ 1 ≤ i ∧ i ≤ s.iterations := by
  rw [mem_iff_before hplan]
  constructor
  · exact fun h => h.1.2.2
  · intro hi
    refine ⟨⟨hlog.1, hlog.2, hi⟩, ?_⟩
    simp only [Step.Past, Step.Before, Step.rank] at hpast ⊢
    omega

/-- The logs of other pairs than that of a trial that fails are those of the pairs that are
done with. -/
theorem loggedBy_iff_past (hs : s.PlacesBelow tree D) (hplan : s.plan = done ++ step :: rest)
    (hother : step.rank.2.2 = 0 ∨ ∀ q, s.Planned (.log q b m) →
      ¬ (q = step.rank.1 ∧ m = step.rank.2.1)) :
    s.LoggedBy cues count done b m content ↔
      ∃ q, step.Past q m ∧ s.Planned (.log q b m) ∧
        content = s.output cues count q m s.iterations := by
  -- a log that was opened is done with, unless its trials are under way
  have hmem (q : Nat) : .log q b m ∈ done ↔ step.Past q m ∧ s.Planned (.log q b m) := by
    rw [mem_iff_before hplan]
    constructor
    · rintro ⟨hlog, hlt⟩
      refine ⟨?_, hlog⟩
      rcases hother with hzero | hother
      · simp only [Step.Past, Step.Before, Step.rank] at hlt hzero ⊢
        omega
      · have hne := hother q hlog
        simp only [Step.Past, Step.Before, Step.rank] at hlt hne ⊢
        omega
    · rintro ⟨hpast, hlog⟩
      refine ⟨hlog, ?_⟩
      simp only [Step.Past, Step.Before, Step.rank] at hpast ⊢
      omega
  rw [loggedBy_iff hs hplan (k := fun _ => s.iterations)]
  · simp only [hmem, and_assoc]
  · intro q hq i
    obtain ⟨hpast, hlog⟩ := (hmem q).1 hq
    exact trial_mem_iff hplan hlog hpast

/-- What was written for the pair of a trial in front of it. -/
theorem flatMap_wrote_of_trial (hs : s.PlacesBelow tree D)
    (hplan : s.plan = done ++ .trial p a n i :: rest) :
    done.flatMap (s.wrote cues count a n) = s.output cues count p n (i - 1) := by
  obtain ⟨hp, hn, hi⟩ := planned_of_plan_eq hplan
  refine flatMap_wrote hs hp hplan fun j => ?_
  rw [mem_iff_before hplan]
  simp only [Planned, Step.Before, Step.rank]
  constructor
  · rintro ⟨⟨-, -, hj⟩, hlt⟩
    omega
  · intro hj
    refine ⟨⟨hp, hn, ?_⟩, ?_⟩
    · omega
    · exact Or.inr ⟨trivial, Or.inr ⟨trivial, by omega⟩⟩

/-- The logs that are left are those of the sweep. -/
theorem mem_of_logsBefore (hplanned : s.Planned step)
    (h : s.logsBefore cues count step b m content) :
    b ∈ s.allocators ∧ 1 ≤ m ∧ m ≤ s.maxThreads := by
  rcases h with ⟨q, -, ⟨hq, hm⟩, -⟩ | hcut
  · exact ⟨List.mem_of_getElem? hq, hm⟩
  · cases step with
    | folder => cases hcut
    | log => cases hcut
    | trial p a n i =>
        obtain ⟨⟨rfl, rfl⟩, -⟩ := hcut
        exact ⟨List.mem_of_getElem? hplanned.1, hplanned.2.1⟩

/-- What a sweep with a script has filed when a step fails. -/
theorem filed_of_fails (hs : s.PlacesBelow tree D)
    (hopen : Archive.open? tree s.directory = .ok (made, s.archive))
    (hplan : s.plan = done ++ step :: rest)
    (h : Taken s recipe (scripted cues) reply (Desk.start made count) done d)
    (hf : Fails s recipe (scripted cues) d step f d') :
    Filed s D Logged tree d'.tree (s.foldersBefore step) (s.logsBefore cues count step) := by
  have hd := filing_of_taken hs hopen h hplan
  cases hf with
  | folder =>
      refine hd.filed.congr (fun b => folder_mem_iff hplan) fun b m content => ?_
      rw [loggedBy_iff_past hs hplan (Or.inl rfl)]
      simp only [logsBefore, cutOff, or_false]
  | log =>
      refine hd.filed.congr (fun b => folder_mem_iff hplan) fun b m content => ?_
      rw [loggedBy_iff_past hs hplan (Or.inl rfl)]
      simp only [logsBefore, cutOff, or_false]
  | @trial p a n i left _ hleft hv =>
      obtain ⟨hsame, -, hnode⟩ := hd.play_writes hplan hleft
      rw [hv] at hnode
      have hp := (planned_of_plan_eq hplan).1
      refine (hd.filed.rewrite hsame hnode).congr (fun b => folder_mem_iff hplan)
        fun b m content => ?_
      rw [logsBefore, cutOff, flatMap_wrote_of_trial hs hplan]
      -- the pair of the failing trial is cut off and not done with; no other pair is cut off
      by_cases hpair : b = a ∧ m = n
      · obtain ⟨rfl, rfl⟩ := hpair
        have hpast : ¬ ∃ q, Step.Past (.trial p b m i) q m ∧ s.Planned (.log q b m) ∧
            content = s.output cues count q m s.iterations := by
          rintro ⟨q, hpast, hlog, -⟩
          obtain rfl := position_unique hs.distinct hlog.1 hp
          simp only [Step.Past, Step.rank] at hpast
          omega
        simp [hpast]
      · have hother : ∀ q, s.Planned (.log q b m) → ¬ (q = p ∧ m = n) := by
          rintro q hlog ⟨rfl, rfl⟩
          exact hpair ⟨Option.some.inj (hlog.1.symm.trans hp), rfl⟩
        rw [loggedBy_iff_past hs hplan (Or.inr hother)]
        simp [hpair]

end

/-- A sweep with iterations that fails has stopped at one of its steps, or before the first:
what it told is the beginning of the story of a sweep that goes through and ends with the
step, its calls came back with the outcomes that it told of, and the failure is that of the
step.  If it plays a script and files its results below a directory, then the logs of all
pairs of an allocator and a number of threads that it was done with are files with their whole
output, that of a trial that failed holds what was written until then, and all else is as before. -/
theorem run_stops (s : Sweep) (recipe : Recipe) (tree : Tree) (failure : Failure)
    (hi : 1 ≤ s.iterations) :
    (∀ {σ : Type} (runner : Runner σ) (state : σ),
      (s.run recipe runner tree state).verdict = .error failure →
        ∃ reply returned stop, s.Stopped recipe runner tree state failure reply returned stop) ∧
    ∀ (cues : List Cue) (count : Nat) (D : Location), s.FilesBelow tree D →
      (s.run recipe (scripted cues) tree count).verdict = .error failure →
        ∃ reply returned stop,
          s.Stopped recipe (scripted cues) tree count failure reply returned stop ∧
          ∀ step, stop = some step →
            Filed s D Rewritten tree (s.run recipe (scripted cues) tree count).tree
              (s.foldersBefore step) (s.logsBefore cues count step) := by
  have hi : s.iterations ≠ 0 := by omega
  constructor
  · intro σ runner state h
    rw [s.run_observed recipe runner tree state []] at h
    rcases fails_of_run_error hi h with
      hopen | ⟨made, hopen, reply, done, step, rest, d, d', hplan, ht, hf⟩
    · exact ⟨fun _ => ⟨.success, ⟨""⟩⟩, [], none, stopped_of_open_error hi hopen⟩
    · exact ⟨reply, _, some step, stopped_of_fails hi hopen hplan ht hf⟩
  · intro cues count D hs h
    have hwatch := s.run_observed recipe (scripted cues) tree count []
    rw [hwatch] at h
    rcases fails_of_run_error hi h with
      hopen | ⟨made, hopen, reply, done, step, rest, d, d', hplan, ht, hf⟩
    · refine ⟨fun _ => ⟨.success, ⟨""⟩⟩, [], none, stopped_of_open_error hi hopen, ?_⟩
      rintro step ⟨⟩
    · refine ⟨reply, _, some step, stopped_of_fails hi hopen hplan ht hf, ?_⟩
      rintro step ⟨⟩
      -- the tree is that of the same sweep without the watch
      have hsim := (scripted cues).simulates_observed
      have hinner : Taken s recipe (scripted cues) reply (.start made count) done
          (d.mapState Prod.fst) := ht.mapState hsim
      rw [hwatch, run_of_fails hi hopen hplan ht hf]
      have hfiled := filed_of_fails hs.toPlacesBelow hopen hplan hinner (hf.mapState hsim)
      exact hfiled.rewritten hs fun b m content => mem_of_logsBefore (planned_of_plan_eq hplan)

/-- A sweep whose last call is lost. -/
theorem run_stops_lost :
    let D := ["bench", "tmp"]
    let s : Sweep := ⟨⟨"."⟩, "larson", ["libc", "hoard"], 1, 2⟩
    let recipe : Recipe := ⟨10, []⟩
    let cues : List Cue := [⟨["x"], none, .success⟩, ⟨["y"], none, .success⟩,
      ⟨["z"], none, .exited 1⟩, ⟨["w"], some "lost", .success⟩]
    let ran := s.run recipe (scripted cues) Tree.bare 0
    1 ≤ s.iterations ∧ s.FilesBelow Tree.bare D ∧ ran.verdict = .error (.reported "lost") ∧
      ∃ reply returned stop,
        s.Stopped recipe (scripted cues) Tree.bare 0 (.reported "lost") reply returned stop ∧
        ∀ step, stop = some step →
          Filed s D Rewritten Tree.bare ran.tree (s.foldersBefore step)
            (s.logsBefore cues 0 step) := by
  intro D s recipe cues ran
  have hs : s.FilesBelow Tree.bare D := by
    have hnone : ∀ a ∈ s.allocators, ∀ n, 1 ≤ n → n ≤ s.maxThreads →
        Tree.bare.node? (s.logAt D a n) = none := by
      intro a ha n hn hle
      obtain rfl : n = 1 := Nat.le_antisymm hle hn
      obtain rfl | rfl : a = "libc" ∨ a = "hoard" := by simpa [s] using ha
      · decide +kernel
      · decide +kernel
    refine ⟨⟨⟨by decide +kernel, by decide +kernel⟩, by decide, by decide, by decide,
      by decide +kernel, by decide +kernel, fun a ha n hn hle => ?_⟩, fun a ha n hn hle kind => ?_⟩
    · rintro ⟨target, hlink⟩
      cases (hnone a ha n hn hle).symm.trans hlink
    · rw [hnone a ha n hn hle]
      exact nofun
  have hran : ran.verdict = .error (.reported "lost") := by decide +kernel
  have hi : 1 ≤ s.iterations := by decide
  exact ⟨hi, hs, hran, (run_stops s recipe Tree.bare _ hi).2 cues 0 D hs hran⟩

end Sweep

end BenchSweep
