import BenchSweep.Proofs.Files.Effects
import BenchSweep.Proofs.Sweep.Plan

/-!
# How a sweep goes on

What a single step of a sweep does, and from it how a whole sweep ends.

* `Sweep.Takes`, `Sweep.Fails` : a step that goes well, and one that does not.
* `Sweep.Taken` : steps that go well one after the other.
* `Sweep.run_cases` : a sweep stops before its first step, takes its whole plan, or takes
  the plan up to a step that fails; by its verdict, `Sweep.taken_of_run_ok` and
  `Sweep.fails_of_run_error`.
-/

namespace BenchSweep.Sweep

/-! ## Steps that go well and steps that fail -/

/-- What a sweep works with between two steps: the files, the state of the runner, and the
log that is open. -/
structure Desk (σ : Type) where
  tree : Tree
  state : σ
  log : ResultLog

/-- What a runner gives back of a trial that it carried out: the outcome, and the place of
the log that it hands back. -/
structure Reply where
  outcome : Outcome
  log : Path

/-- The archive of a sweep. -/
def archive (s : Sweep) : Archive := .ofDirectory s.directory

variable {σ : Type}

/-- A step that goes well; the replies are those of the runner to the trials. -/
inductive Takes (s : Sweep) (recipe : Recipe) (runner : Runner σ) (reply : Step → Reply) :
    Desk σ → Step → Desk σ → Prop
  | folder {d p a tree} (h : s.archive.ensureFolder d.tree a = .ok tree) :
      Takes s recipe runner reply d (.folder p a) { d with tree }
  | log {d p a n tree log} (h : s.archive.openLog d.tree a s.benchmark n = .ok (tree, log)) :
      Takes s recipe runner reply d (.log p a n) { d with tree, log }
  | trial {d p a n i left}
      (h : runner.run (s.trial recipe a n i) recipe.timeout d.log d.tree d.state = left)
      (hv : left.verdict = .ok (reply (.trial p a n i)).outcome)
      (hl : left.log.path = (reply (.trial p a n i)).log) :
      Takes s recipe runner reply d (.trial p a n i) ⟨left.tree, left.state, left.log⟩

/-- A step that fails, and what it leaves. -/
inductive Fails (s : Sweep) (recipe : Recipe) (runner : Runner σ) :
    Desk σ → Step → Failure → Desk σ → Prop
  | folder {d p a f} (h : s.archive.ensureFolder d.tree a = .error f) :
      Fails s recipe runner d (.folder p a) f d
  | log {d p a n f} (h : s.archive.openLog d.tree a s.benchmark n = .error f) :
      Fails s recipe runner d (.log p a n) f d
  | trial {d p a n i left f}
      (h : runner.run (s.trial recipe a n i) recipe.timeout d.log d.tree d.state = left)
      (hv : left.verdict = .error f) :
      Fails s recipe runner d (.trial p a n i) f ⟨left.tree, left.state, left.log⟩

/-- Steps that go well one after the other. -/
inductive Taken (s : Sweep) (recipe : Recipe) (runner : Runner σ) (reply : Step → Reply) :
    Desk σ → List Step → Desk σ → Prop
  | nil {d} : Taken s recipe runner reply d [] d
  | cons {d d' d'' step rest} (h : Takes s recipe runner reply d step d')
      (hrest : Taken s recipe runner reply d' rest d'') :
      Taken s recipe runner reply d (step :: rest) d''

/-! ## What steps leave behind -/

/-- What is told when a step begins. -/
def announced (s : Sweep) (recipe : Recipe) : Step → Progress
  | .folder _ a => .allocator a
  | .log _ a n => .threads a n
  | .trial _ a n i => .started (s.trial recipe a n i) recipe.timeLimit

/-- What is told of a step that goes well. -/
def told (s : Sweep) (recipe : Recipe) (reply : Step → Reply) (step : Step) : List Progress :=
  s.announced recipe step ::
    match step with
    | .trial _ a n i => [.finished (s.trial recipe a n i) (reply step).outcome]
    | _ => []

/-- The log that a step opens. -/
def opened (s : Sweep) : Step → List Path
  | .log _ a n => [s.archive.logPath a s.benchmark n]
  | _ => []

/-- Is the step a trial that fails? -/
def failing (reply : Step → Reply) : Step → Bool
  | .trial p a n i => (reply (.trial p a n i)).outcome.isFailure
  | _ => false

/-- The state of a sweep that has taken some steps. -/
def Desk.scene (d : Desk σ) (s : Sweep) (recipe : Recipe) (reply : Step → Reply)
    (past : List Step) : Scene σ where
  tree := d.tree
  state := d.state
  progress := (past.flatMap (s.told recipe reply)).toArray
  logs := (past.flatMap s.opened).toArray
  failures := addCapped 0 (past.countP (failing reply))

theorem addCapped_addCapped (n a b : Nat) : addCapped (addCapped n a) b = addCapped n (a + b) := by
  unfold addCapped
  omega

/-! ## Courses, seen from the outside -/

/-- What a course ends with and the state that it leaves, from a state on. -/
def after {α : Type} (course : Course σ α) (scene : Scene σ) : Except Failure α × Scene σ :=
  course.run.run scene

section

variable {α β : Type} (scene : Scene σ)

/-- A course goes on behind one that goes well, and stops with one that fails. -/
theorem after_bind (x : Course σ α) (f : α → Course σ β) :
    after (x >>= f) scene =
      match after x scene with
      | (.ok result, scene) => after (f result) scene
      | (.error failure, scene) => (.error failure, scene) := by
  show ((x >>= f).run.run scene : Except Failure β × Scene σ) = _
  rw [ExceptT.run_bind, StateT.run_bind]
  rcases hx : x.run.run scene with ⟨_ | _, _⟩ <;> simp [after, hx] <;> rfl

theorem after_tell (p : Progress) :
    after (tell p) scene = (.ok (), { scene with progress := scene.progress.push p }) :=
  rfl

theorem after_withTree (f : Tree → Except Failure (Tree × α)) :
    after (withTree f : Course σ α) scene =
      match f scene.tree with
      | .ok (tree, result) => (.ok result, { scene with tree })
      | .error failure => (.error failure, scene) := by
  rw [withTree, after_bind]
  show after (match f scene.tree with | .ok (tree, result) => _ | .error failure => _) scene = _
  cases f scene.tree <;> rfl

theorem after_ensureFolder (archive : Archive) (a : String) :
    after (ensureFolder archive a) scene =
      match archive.ensureFolder scene.tree a with
      | .ok tree => (.ok (), { scene with tree })
      | .error failure => (.error failure, scene) := by
  rw [ensureFolder, after_withTree]
  cases archive.ensureFolder scene.tree a <;> rfl

theorem after_openLog (s : Sweep) (archive : Archive) (a : String) (n : Nat) :
    after (s.openLog archive a n) scene =
      match archive.openLog scene.tree a s.benchmark n with
      | .ok (tree, log) => (.ok log, { scene with tree, logs := scene.logs.push log.path })
      | .error failure => (.error failure, scene) := by
  rw [openLog, after_bind, after_withTree]
  cases archive.openLog scene.tree a s.benchmark n <;> rfl

theorem after_attempt (recipe : Recipe) (runner : Runner σ) (trial : Trial) (log : ResultLog) :
    after (attempt runner recipe trial log) scene =
      let left := runner.run trial recipe.timeout log scene.tree scene.state
      let scene := { scene with tree := left.tree, state := left.state }
      match left.verdict with
      | .ok outcome =>
        (.ok (outcome, left.log),
          if outcome.isFailure then { scene with failures := addCapped scene.failures 1 }
          else scene)
      | .error failure => (.error failure, scene) := by
  rw [attempt, after_bind]
  show after (do set _; let outcome ← liftM (runner.run _ _ _ scene.tree scene.state).verdict; _)
    scene = _
  rcases runner.run trial recipe.timeout log scene.tree scene.state with ⟨_ | outcome, _, _, _⟩
  · rfl
  · cases outcome <;> rfl

end

/-! ## Running steps -/

section

variable {s : Sweep} {recipe : Recipe} {runner : Runner σ} {reply : Step → Reply}
  {d d' : Desk σ} {step : Step} {past rest steps : List Step} {f : Failure}

/-- A step that goes well hands on to the steps behind it. -/
theorem after_follow_of_takes (h : Takes s recipe runner reply d step d') :
    after (s.follow recipe runner s.archive d.log (step :: rest)) (d.scene s recipe reply past) =
      after (s.follow recipe runner s.archive d'.log rest)
        (d'.scene s recipe reply (past ++ [step])) := by
  cases h with
  | folder h =>
      simp [follow, stepCourse, after_bind, after_tell, after_ensureFolder, h,
        Desk.scene, told, announced, opened, failing]
  | log h =>
      simp [follow, stepCourse, after_bind, after_tell, after_openLog, h, (Archive.openLog_ok h).2,
        Desk.scene, told, announced, opened, failing]
  | @trial p a n i left h hv hl =>
      -- a failure adds one to a count that is capped already
      have hadd := addCapped_addCapped 0 (past.countP (failing reply)) 1
      cases ho : (reply (.trial p a n i)).outcome.isFailure <;>
        simp [follow, stepCourse, after_bind, after_tell, after_attempt, h, hv,
          Desk.scene, told, announced, opened, failing, ho, hadd]

/-- A step that fails ends the course, with no more said of it than its announcement. -/
theorem after_follow_of_fails (h : Fails s recipe runner d step f d') :
    after (s.follow recipe runner s.archive d.log (step :: rest)) (d.scene s recipe reply past) =
      (.error f, { d'.scene s recipe reply past with
        progress :=
          (past.flatMap (s.told recipe reply) ++ [s.announced recipe step]).toArray }) := by
  cases h with
  | folder h =>
      simp [follow, stepCourse, after_bind, after_tell, after_ensureFolder, h, Desk.scene,
        announced]
  | log h =>
      simp [follow, stepCourse, after_bind, after_tell, after_openLog, h, Desk.scene, announced]
  | trial h hv =>
      simp [follow, stepCourse, after_bind, after_tell, after_attempt, h, hv, Desk.scene, announced]

/-- Steps that go well hand on to the steps behind them. -/
theorem after_follow_of_taken (h : Taken s recipe runner reply d steps d')
    (past rest : List Step) :
    after (s.follow recipe runner s.archive d.log (steps ++ rest)) (d.scene s recipe reply past) =
      after (s.follow recipe runner s.archive d'.log rest)
        (d'.scene s recipe reply (past ++ steps)) := by
  induction h generalizing past with
  | nil => simp
  | cons h _ ih =>
      rw [List.cons_append, after_follow_of_takes h, ih, List.append_assoc, List.singleton_append]

/-- Steps that go well do so whatever the replies to other steps are. -/
theorem Taken.congr {reply' : Step → Reply} (h : Taken s recipe runner reply d steps d')
    (heq : ∀ step ∈ steps, reply step = reply' step) :
    Taken s recipe runner reply' d steps d' := by
  induction h with
  | nil => exact .nil
  | cons h _ ih =>
      have hstep := heq _ List.mem_cons_self
      refine .cons ?_ (ih fun step hs => heq step (List.mem_cons_of_mem _ hs))
      cases h with
      | folder h => exact .folder h
      | log h => exact .log h
      | trial h hv hl => exact .trial h (hstep ▸ hv) (hstep ▸ hl)

/-- What holds of the steps taken so far, and is kept by every step of the plan that goes
well, holds behind all steps of the plan that go well. -/
theorem Taken.invariant {motive : List Step → Desk σ → Prop}
    (h : Taken s recipe runner reply d steps d')
    (hstep : ∀ {done step rest d d'}, s.plan = done ++ step :: rest → motive done d →
      Takes s recipe runner reply d step d' → motive (done ++ [step]) d')
    (hplan : s.plan = past ++ (steps ++ rest)) (hstart : motive past d) :
    motive (past ++ steps) d' := by
  -- the steps in front grow by the one that was taken
  induction h generalizing past with
  | nil => rwa [List.append_nil]
  | @cons d d' d'' step steps h _ ih =>
      rw [List.append_cons]
      refine ih ?_ (hstep hplan hstart h)
      rw [hplan]
      simp

/-- A step goes well or fails. -/
theorem takes_or_fails (s : Sweep) (recipe : Recipe) (runner : Runner σ) (d : Desk σ)
    (step : Step) :
    (∃ r d', ∀ reply, reply step = r → Takes s recipe runner reply d step d') ∨
      ∃ f d', Fails s recipe runner d step f d' := by
  cases step with
  | folder p a =>
      cases h : s.archive.ensureFolder d.tree a with
      | ok tree => exact Or.inl ⟨⟨.success, ⟨""⟩⟩, _, fun _ _ => .folder h⟩
      | error f => exact Or.inr ⟨f, d, .folder h⟩
  | log p a n =>
      cases h : s.archive.openLog d.tree a s.benchmark n with
      | ok made => exact Or.inl ⟨⟨.success, ⟨""⟩⟩, _, fun _ _ => .log h⟩
      | error f => exact Or.inr ⟨f, d, .log h⟩
  | trial p a n i =>
      rcases h : runner.run (s.trial recipe a n i) recipe.timeout d.log d.tree d.state with
        ⟨f | outcome, log, tree, state⟩
      · exact Or.inr ⟨f, _, .trial h rfl⟩
      · refine Or.inl ⟨⟨outcome, log.path⟩, _, fun reply hr => .trial h ?_ ?_⟩
        · rw [hr]
        · rw [hr]

/-- Steps that are all different go well one after the other, up to the first that fails. -/
theorem taken_or_fails (s : Sweep) (recipe : Recipe) (runner : Runner σ) {steps : List Step}
    (hnd : steps.Nodup) (d : Desk σ) :
    (∃ reply d', Taken s recipe runner reply d steps d') ∨
      ∃ reply done step rest d' f d'', steps = done ++ step :: rest ∧
        Taken s recipe runner reply d done d' ∧ Fails s recipe runner d' step f d'' := by
  induction steps generalizing d with
  | nil => exact Or.inl ⟨fun _ => ⟨.success, ⟨""⟩⟩, d, .nil⟩
  | cons step steps ih =>
      obtain ⟨hnot, hnd⟩ := List.nodup_cons.1 hnd
      rcases takes_or_fails s recipe runner d step with ⟨r, d', hstep⟩ | ⟨f, d', hstep⟩
      · -- the reply to `step` is added to those of the steps behind it
        have hcons : ∀ {reply : Step → Reply} {done : List Step} {d'' : Desk σ}, step ∉ done →
            Taken s recipe runner reply d' done d'' →
            Taken s recipe runner (fun x => if x = step then r else reply x) d (step :: done)
              d'' := by
          intro reply done d'' hdone h
          refine .cons (hstep _ (if_pos rfl)) (h.congr fun x hx => ?_)
          rw [if_neg fun hxs : x = step => hdone (hxs ▸ hx)]
        rcases ih hnd d' with ⟨reply, d'', h⟩ | ⟨reply, done, next, rest, d'', f, d₃, rfl, h, hf⟩
        · exact Or.inl ⟨_, d'', hcons hnot h⟩
        · have hdone : step ∉ done := fun hs => hnot (List.mem_append_left _ hs)
          exact Or.inr ⟨_, step :: done, next, rest, d'', f, d₃, rfl, hcons hdone h, hf⟩
      · exact Or.inr ⟨fun _ => ⟨.success, ⟨""⟩⟩, [], step, steps, d, f, d', rfl, .nil, hstep⟩

end

/-! ## Running a sweep -/

/-- The desk before the first step, with a log open that takes everything and keeps nothing. -/
def Desk.start (tree : Tree) (state : σ) : Desk σ := ⟨tree, state, ⟨⟨""⟩, ⟨.device .null, 0⟩⟩⟩

section

variable {s : Sweep} {recipe : Recipe} {runner : Runner σ} {reply : Step → Reply}
  {tree made : Tree} {state : σ} {d d' : Desk σ} {f : Failure}

theorem after_course_of_no_iterations (hi : s.iterations = 0) (scene : Scene σ) :
    after (s.course recipe runner) scene = (.error .noIterations, scene) := by
  rw [course, if_pos hi]
  rfl

theorem after_course (hi : s.iterations ≠ 0) (scene : Scene σ) :
    after (s.course recipe runner) scene =
      match Archive.open? scene.tree s.directory with
      | .ok (tree, archive) =>
        after (s.overAllocators recipe runner archive s.allocators) { scene with tree }
      | .error failure => (.error failure, scene) := by
  rw [course, if_neg hi]
  show after (do let archive ← withTree _; _) scene = _
  rw [after_bind, after_withTree]
  cases Archive.open? scene.tree s.directory <;> rfl

/-- An archive that is opened is that of the sweep, with its directory seen to. -/
theorem archive_open_ok {archive : Archive}
    (h : Archive.open? tree s.directory = .ok (made, archive)) :
    ensureDirectory tree (s.directory.join Archive.directoryName) = .ok made ∧
      archive = s.archive := by
  unfold Archive.open? at h
  cases hmade : ensureDirectory tree (Archive.ofDirectory s.directory).root with
  | ok t =>
      rw [hmade] at h
      cases h
      exact ⟨hmade, rfl⟩
  | error f =>
      rw [hmade] at h
      cases h

theorem run_eq (s : Sweep) (recipe : Recipe) (runner : Runner σ) (tree : Tree) (state : σ) :
    s.run recipe runner tree state =
      let ended := after (s.course recipe runner) ⟨tree, state, #[], #[], 0⟩
      { verdict := ended.1.map fun _ => ⟨ended.2.logs.toList, ended.2.failures⟩
        progress := ended.2.progress.toList
        tree := ended.2.tree
        state := ended.2.state } :=
  rfl

/-- Without iterations nothing begins. -/
theorem run_of_no_iterations (hi : s.iterations = 0) :
    s.run recipe runner tree state = ⟨.error .noIterations, [], tree, state⟩ := by
  simp [run_eq, after_course_of_no_iterations hi, Except.map]

/-- Without an archive nothing begins. -/
theorem run_of_open_error (hi : s.iterations ≠ 0)
    (h : Archive.open? tree s.directory = .error f) :
    s.run recipe runner tree state = ⟨.error f, [], tree, state⟩ := by
  simp [run_eq, after_course hi, h, Except.map]

/-- Behind the opening of the archive a sweep follows its plan. -/
theorem after_course_of_open (hi : s.iterations ≠ 0)
    (h : Archive.open? tree s.directory = .ok (made, s.archive)) (reply : Step → Reply) :
    after (s.course recipe runner) ⟨tree, state, #[], #[], 0⟩ =
      after (s.follow recipe runner s.archive (Desk.start made state).log s.plan)
        ((Desk.start made state).scene s recipe reply []) := by
  rw [after_course hi, follow_plan]
  simp [h, Desk.scene, Desk.start, addCapped]

/-- A sweep whose steps all go well. -/
theorem run_of_taken (hi : s.iterations ≠ 0)
    (hopen : Archive.open? tree s.directory = .ok (made, s.archive))
    (h : Taken s recipe runner reply (Desk.start made state) s.plan d) :
    s.run recipe runner tree state =
      ⟨.ok ⟨s.plan.flatMap s.opened, addCapped 0 (s.plan.countP (failing reply))⟩,
        s.plan.flatMap (s.told recipe reply), d.tree, d.state⟩ := by
  have hfollow := after_follow_of_taken h [] []
  rw [List.append_nil] at hfollow
  rw [run_eq, after_course_of_open hi hopen reply, hfollow]
  rfl

/-- A sweep of which a step fails. -/
theorem run_of_fails {done rest : List Step} {step : Step} (hi : s.iterations ≠ 0)
    (hopen : Archive.open? tree s.directory = .ok (made, s.archive))
    (hplan : s.plan = done ++ step :: rest)
    (h : Taken s recipe runner reply (Desk.start made state) done d)
    (hf : Fails s recipe runner d step f d') :
    s.run recipe runner tree state =
      ⟨.error f, done.flatMap (s.told recipe reply) ++ [s.announced recipe step],
        d'.tree, d'.state⟩ := by
  have hfollow := after_follow_of_taken h [] (step :: rest)
  rw [List.nil_append, after_follow_of_fails hf] at hfollow
  rw [run_eq, after_course_of_open hi hopen reply, hplan, hfollow]
  rfl

/-- How a sweep with iterations ends: it stops at its archive, it takes its whole plan, or a
step of the plan fails. -/
theorem run_cases (s : Sweep) (recipe : Recipe) (runner : Runner σ) (tree : Tree) (state : σ) :
    (∃ f, Archive.open? tree s.directory = .error f) ∨
      ∃ made, Archive.open? tree s.directory = .ok (made, s.archive) ∧
        ((∃ reply d, Taken s recipe runner reply (Desk.start made state) s.plan d) ∨
          ∃ reply done step rest d f d', s.plan = done ++ step :: rest ∧
            Taken s recipe runner reply (Desk.start made state) done d ∧
            Fails s recipe runner d step f d') := by
  cases hopen : Archive.open? tree s.directory with
  | error f => exact Or.inl ⟨f, rfl⟩
  | ok opened =>
      obtain ⟨made, archive⟩ := opened
      obtain rfl := (archive_open_ok hopen).2
      exact Or.inr ⟨made, rfl, taken_or_fails s recipe runner s.plan_nodup _⟩

/-- A sweep that goes through has taken its whole plan. -/
theorem taken_of_run_ok {tally : Tally} (h : (s.run recipe runner tree state).verdict = .ok tally) :
    s.iterations ≠ 0 ∧ ∃ made, Archive.open? tree s.directory = .ok (made, s.archive) ∧
      ∃ reply d, Taken s recipe runner reply (Desk.start made state) s.plan d := by
  have hi : s.iterations ≠ 0 := by
    intro hi
    rw [run_eq, after_course_of_no_iterations hi] at h
    cases h
  refine ⟨hi, ?_⟩
  rcases s.run_cases recipe runner tree state with
    ⟨f, hopen⟩ | ⟨made, hopen, ht | ⟨reply, done, step, rest, d, f, d', hplan, ht, hf⟩⟩
  · rw [run_of_open_error hi hopen] at h
    cases h
  · exact ⟨made, hopen, ht⟩
  · rw [run_of_fails hi hopen hplan ht hf] at h
    cases h

/-- A sweep with iterations that fails stops at its archive, or a step of its plan fails in the
same way. -/
theorem fails_of_run_error (hi : s.iterations ≠ 0)
    (h : (s.run recipe runner tree state).verdict = .error f) :
    Archive.open? tree s.directory = .error f ∨
      ∃ made, Archive.open? tree s.directory = .ok (made, s.archive) ∧
        ∃ reply done step rest d d', s.plan = done ++ step :: rest ∧
          Taken s recipe runner reply (Desk.start made state) done d ∧
          Fails s recipe runner d step f d' := by
  rcases s.run_cases recipe runner tree state with
    ⟨e, hopen⟩ | ⟨made, hopen, ⟨reply, d, ht⟩ | ⟨reply, done, step, rest, d, e, d', hplan, ht, hf⟩⟩
  · rw [run_of_open_error hi hopen] at h
    cases h
    exact Or.inl hopen
  · rw [run_of_taken hi hopen ht] at h
    cases h
  · rw [run_of_fails hi hopen hplan ht hf] at h
    cases h
    exact Or.inr ⟨made, hopen, reply, done, step, rest, d, d', hplan, ht, hf⟩

theorem runConfigured_of_load_error (h : Recipe.load tree s.directory = .error f) :
    s.runConfigured runner tree state = ⟨.error f, [], tree, state⟩ := by
  rw [runConfigured, h]

theorem runConfigured_of_load_ok (h : Recipe.load tree s.directory = .ok recipe) :
    s.runConfigured runner tree state = s.run recipe runner tree state := by
  rw [runConfigured, h]

end

end BenchSweep.Sweep
