import BenchSweep.Proofs.CommandLine.Visits
import BenchSweep.Proofs.Settings.Document
import BenchSweep.Proofs.Sweep.Calls

/-!
# Exit codes

* `Sweep.failures_of_run_ok` : a sweep that goes through counts its failed trials, up to a cap.
* `Sweep.observations_ne_nil` : it has trials if it has an allocator, a thread and an iteration.
* `Sweep.Clean`, `Suite.Plots` : a sweep, and a plotter, with nothing to complain of.
* `CommandLine.exit_codes` : a command exits with zero only if this is so of all that it ran.
-/

namespace BenchSweep

variable {σ : Type}

/-! ## Trials -/

namespace Sweep

variable {s : Sweep} {recipe : Recipe} {runner : Runner σ} {tree : Tree} {state : σ} {tally : Tally}

/-- What is seen of a sweep that goes through. -/
theorem observations_of_run_ok (h : (s.run recipe runner tree state).verdict = .ok tally) :
    ∃ reply : Step → Reply, s.observations recipe runner tree state = s.calls recipe reply ∧
      tally.failures = min countCap ((s.calls recipe reply).countP Observation.failed) := by
  obtain ⟨reply, hseen, -, hfailures⟩ := exists_reply_of_run_ok h
  exact ⟨reply, hseen, hfailures⟩

/-- A sweep that goes through counts its failed trials, up to a cap. -/
theorem failures_of_run_ok (h : (s.run recipe runner tree state).verdict = .ok tally) :
    tally.failures =
      min countCap ((s.observations recipe runner tree state).countP Observation.failed) := by
  obtain ⟨reply, hseen, hfailures⟩ := observations_of_run_ok h
  rw [hseen, hfailures]

/-- Every trial of a sweep that goes through has an outcome. -/
theorem exists_outcome_of_run_ok (h : (s.run recipe runner tree state).verdict = .ok tally)
    {call : Observation} (hcall : call ∈ s.observations recipe runner tree state) :
    ∃ outcome, call.verdict = .ok outcome := by
  obtain ⟨reply, hseen, -⟩ := observations_of_run_ok h
  rw [hseen, calls_eq, List.mem_flatMap] at hcall
  obtain ⟨step, -, hcall⟩ := hcall
  cases step with
  | folder => cases hcall
  | log => cases hcall
  | trial p a n i =>
      obtain rfl := List.mem_singleton.1 hcall
      exact ⟨_, rfl⟩

/-- A sweep that goes through has trials if it has an allocator and a thread count. -/
theorem observations_ne_nil (h : (s.run recipe runner tree state).verdict = .ok tally)
    (hallocators : s.allocators ≠ []) (hthreads : 0 < s.maxThreads) :
    s.observations recipe runner tree state ≠ [] := by
  obtain ⟨reply, hseen, -⟩ := observations_of_run_ok h
  have hiterations : 0 < s.iterations := Nat.pos_of_ne_zero (taken_of_run_ok h).1
  obtain ⟨a, rest, hcons⟩ := List.exists_cons_of_ne_nil hallocators
  -- the first trial of the first allocator
  have hfirst : s.observation recipe reply 0 a 1 1 ∈ s.calls recipe reply := by
    refine List.mem_flatMap.2 ⟨(a, 0), by simp [hcons], ?_⟩
    refine List.mem_flatMap.2 ⟨1, List.mem_range'_1.2 (by omega), ?_⟩
    exact List.mem_map.2 ⟨1, List.mem_range'_1.2 (by omega), rfl⟩
  rw [hseen]
  exact List.ne_nil_of_mem hfirst

/-- No failure is counted if all trials of a sweep that goes through end well. -/
theorem failures_eq_zero_iff (h : (s.run recipe runner tree state).verdict = .ok tally) :
    tally.failures = 0 ↔
      ∀ call ∈ s.observations recipe runner tree state, call.verdict = .ok .success := by
  have hcap : 0 < countCap := by decide
  have hcount : tally.failures = 0 ↔
      (s.observations recipe runner tree state).countP Observation.failed = 0 := by
    rw [failures_of_run_ok h]
    omega
  rw [hcount, List.countP_eq_zero]
  refine forall_congr' fun call => imp_congr_right fun hcall => ?_
  obtain ⟨outcome, houtcome⟩ := exists_outcome_of_run_ok h hcall
  cases outcome <;> simp [Observation.failed, houtcome, Outcome.isFailure]

/-- Does the sweep go through, by the recipe in its directory, with at least one trial, and do all
its trials end well? -/
def Clean (s : Sweep) (host : Host) (tree : Tree) : Prop :=
  ∃ recipe tally, Recipe.load tree s.directory = .ok recipe ∧
    (s.run recipe (Runner.processes host) tree ()).verdict = .ok tally ∧
    s.observations recipe (Runner.processes host) tree () ≠ [] ∧
    ∀ call ∈ s.observations recipe (Runner.processes host) tree (), call.verdict = .ok .success

/-- Is a sweep clean?  It is if it goes through and no failure is counted. -/
theorem clean_iff {host : Host} (hallocators : s.allocators ≠ []) (hthreads : 0 < s.maxThreads) :
    s.Clean host tree ↔
      ∃ tally, (s.runConfigured (Runner.processes host) tree ()).verdict = .ok tally ∧
        tally.failures = 0 := by
  constructor
  · rintro ⟨recipe, tally, hload, hrun, -, hgood⟩
    rw [runConfigured_of_load_ok hload]
    exact ⟨tally, hrun, (failures_eq_zero_iff hrun).2 hgood⟩
  · rintro ⟨tally, hrun, hzero⟩
    cases hload : Recipe.load tree s.directory with
    | error f =>
        rw [runConfigured_of_load_error hload] at hrun
        cases hrun
    | ok recipe =>
        rw [runConfigured_of_load_ok hload] at hrun
        exact ⟨recipe, tally, hload, hrun, observations_ne_nil hrun hallocators hthreads,
          (failures_eq_zero_iff hrun).1 hzero⟩

end Sweep

/-! ## Plotters -/

namespace Suite

/-- Is the plotter started for a benchmark, and does it exit with code zero? -/
def Plots (s : Suite) (host : Host) (tree : Tree) (name : String) : Prop :=
  ∃ run, host.start tree s.plotterPath [(s.directory name).text, name] = .ok run ∧
    run.ending = .exited 0

/-- No ending but the code zero has the status zero. -/
theorem plotStatus_eq_zero_iff (ending : Ending) :
    plotStatus ending.status = 0 ↔ ending = .exited 0 := by
  rw [plotStatus_status]
  cases ending with
  | exited code =>
      rw [Ending.exited.injEq, ← UInt8.toNat_inj]
      rfl
  | killed signal coreDumped => simp

/-- The status of a plotter is zero if it exits with code zero. -/
theorem status_plot_eq_zero_iff (s : Suite) (host : Host) (tree : Tree) (name : String) :
    (s.plot host tree name).status = 0 ↔ s.Plots host tree name := by
  dsimp only [plot, plotterArgs]
  rw [Plots]
  cases host.start tree s.plotterPath [(s.directory name).text, name] with
  | error fault => simp
  | ok run =>
      show plotStatus run.ending.status = 0 ↔ _
      rw [plotStatus_eq_zero_iff]
      exact ⟨fun h => ⟨run, rfl, h⟩, fun ⟨_, heq, h⟩ => Except.ok.inj heq ▸ h⟩

/-! ## Suites -/

/-- A sweep has the status zero if it goes through without a failure. -/
theorem sweepStatus_eq_zero_iff (verdict : Except Failure Tally) :
    sweepStatus verdict = 0 ↔ ∃ tally, verdict = .ok tally ∧ tally.failures = 0 := by
  cases verdict <;> simp [sweepStatus]

/-- Are a benchmark's sweep and its plotter without complaint, from the tree that the benchmarks
in front of it leave? -/
def CleanAfter (s : Suite) (host : Host) (tree : Tree) (front : List String) (name : String) :
    Prop :=
  let before := (s.runAll host (Runner.processes host) tree () front).tree
  (s.sweep name).Clean host before ∧
    s.Plots host ((s.sweep name).runConfigured (Runner.processes host) before ()).tree name

/-- Nothing adds up if every benchmark is without complaint. -/
theorem sum_eq_zero_iff (s : Suite) (host : Host) (hallocators : s.settings.allocators ≠ [])
    (hthreads : 0 < s.settings.maxThreads) (names : List String) (tree : Tree) :
    sum (s.runAll host (Runner.processes host) tree () names).rows = 0 ↔
      ∀ front name rest, names = front ++ name :: rest → s.CleanAfter host tree front name := by
  induction names generalizing tree with
  | nil => simp [runAll, sum]
  | cons first names ih =>
      have hfirst : s.CleanAfter host tree [] first ↔
          (s.runOne host (Runner.processes host) tree () first).1.sweepStatus = 0 ∧
            (s.runOne host (Runner.processes host) tree () first).1.plotStatus = 0 := by
        rw [CleanAfter, runOne, sweepStatus_eq_zero_iff, status_plot_eq_zero_iff,
          Sweep.clean_iff hallocators hthreads]
        rfl
      have hsum := s.sum_runAll host (Runner.processes host) tree () first names
      dsimp only at hsum
      rw [hsum, Nat.add_eq_zero_iff, Nat.add_eq_zero_iff, ← hfirst, ih]
      constructor
      · rintro ⟨hhere, hlater⟩ front name rest heq
        cases front with
        | nil =>
            obtain ⟨rfl, -⟩ := List.cons.inj heq
            exact hhere
        | cons other front =>
            obtain ⟨rfl, htail⟩ := List.cons.inj heq
            exact hlater front name rest htail
      · intro h
        refine ⟨h [] first names rfl, fun front name rest heq => ?_⟩
        exact h (first :: front) name rest (congrArg (first :: ·) heq)

end Suite

namespace CommandLine

/-! ## Settings -/

/-- Do settings name an allocator and allow a thread? -/
def Usable (s : Settings) : Prop := s.allocators ≠ [] ∧ 0 < s.maxThreads

theorem usable_standard : Usable .standard := ⟨by decide, by decide⟩

/-- Settings that are loaded are of use. -/
theorem usable_of_load {complaint : String → String} {tree : Tree} {path : Path}
    {settings : Settings} (h : Settings.load complaint tree path = .ok settings) :
    Usable settings := by
  obtain ⟨hallocators, hthreads, -⟩ := Settings.bounds_of_load h
  exact ⟨hallocators, hthreads⟩

theorem count?_pos {s : String} {n : Nat} (h : count? s = some n) : 0 < n := by
  rw [count?, Option.filter_eq_some_iff] at h
  simpa using h.2

theorem Matches.count?_pos {m : Matches} {name : String} {n : Nat} (h : m.count? name = some n) :
    0 < n := by
  obtain ⟨value, -, hn⟩ := Option.bind_eq_some_iff.1 h
  exact CommandLine.count?_pos hn

namespace RunBench

variable {r : Request} {settings : Settings} {host : Host} {tree : Tree}

/-- What a request chooses itself leaves settings of use. -/
theorem usable_override (m : Matches) (h : Usable settings) :
    Usable ((Request.ofMatches m).override settings) := by
  constructor
  · unfold Request.override
    dsimp only
    split
    · exact h.1
    · assumption
  · unfold Request.override
    dsimp only
    cases hn : (Request.ofMatches m).maxThreads with
    | none => exact h.2
    | some n => exact Matches.count?_pos hn

theorem usable_of_loadSettings {m : Matches}
    (h : (Request.ofMatches m).loadSettings host tree = .ok settings) : Usable settings := by
  unfold Request.loadSettings at h
  split at h
  · cases h
    exact usable_override m usable_standard
  · next path _ =>
      cases hload : Settings.load host.complaint tree path with
      | error f =>
          rw [hload] at h
          cases h
      | ok loaded =>
          rw [hload] at h
          cases h
          exact usable_override m (usable_of_load hload)

/-- How a request ends: without settings, with a sweep that does not go through, or with one that
does. -/
theorem perform_cases (host : Host) (colors : Bool) (span : Span) (r : Request) (tree : Tree) :
    let code := (perform host colors span r tree).code
    (∃ f, r.loadSettings host tree = .error f ∧ code = 1) ∨
      ∃ settings, r.loadSettings host tree = .ok settings ∧
        let ran := (r.sweep settings).runConfigured (Runner.processes host) tree ()
        ((∃ f, ran.verdict = .error f ∧ code = 1) ∨
          ∃ tally, ran.verdict = .ok tally ∧ code = min tally.failures 255) := by
  dsimp only
  rw [perform]
  cases hload : r.loadSettings host tree with
  | error f => exact Or.inl ⟨f, rfl, rfl⟩
  | ok settings =>
      refine Or.inr ⟨settings, rfl, ?_⟩
      dsimp only
      cases hrun : ((r.sweep settings).runConfigured (Runner.processes host) tree ()).verdict with
      | error f => exact Or.inl ⟨f, rfl, rfl⟩
      | ok tally => exact Or.inr ⟨tally, rfl, rfl⟩

/-- The exit code of a request whose settings are of use. -/
theorem code_perform (colors : Bool) (span : Span)
    (husable : ∀ settings, r.loadSettings host tree = .ok settings → Usable settings) :
    let code := (perform host colors span r tree).code
    (code = 0 ↔
        ∃ settings, r.loadSettings host tree = .ok settings ∧
          (r.sweep settings).Clean host tree) ∧
      (∀ f, r.loadSettings host tree = .error f → code = 1) ∧
      ∀ settings, r.loadSettings host tree = .ok settings →
        (∀ f, Recipe.load tree r.directory = .error f → code = 1) ∧
        ∀ recipe, Recipe.load tree r.directory = .ok recipe →
          let ran := (r.sweep settings).run recipe (Runner.processes host) tree ()
          let trials := (r.sweep settings).observations recipe (Runner.processes host) tree ()
          (∀ f, ran.verdict = .error f → code = 1) ∧
          ∀ tally, ran.verdict = .ok tally →
            trials ≠ [] ∧ code = min 255 (trials.countP Observation.failed) := by
  have hcases := perform_cases host colors span r tree
  generalize (perform host colors span r tree).code = code at hcases
  rcases hcases with ⟨f, hload, rfl⟩ | ⟨settings, hload, hsweep⟩
  · simp [hload]
  -- the settings that were loaded are the only ones that are asked for
  obtain ⟨hallocators, hthreads⟩ := husable settings hload
  refine ⟨?_, fun f herror => by simp [hload] at herror, fun other hother => ?_⟩
  · have hiff : (∃ settings, r.loadSettings host tree = .ok settings ∧
        (r.sweep settings).Clean host tree) ↔ (r.sweep settings).Clean host tree := by
      simp [hload]
    rw [hiff, Sweep.clean_iff hallocators hthreads]
    rcases hsweep with ⟨f, hrun, rfl⟩ | ⟨tally, hrun, rfl⟩
    · simp [hrun]
    · simp only [hrun, Except.ok.injEq, exists_eq_left']
      omega
  · obtain rfl : settings = other := Except.ok.inj (hload.symm.trans hother)
    refine ⟨fun f herror => ?_, fun recipe hrecipe => ?_⟩
    · rw [Sweep.runConfigured_of_load_error (s := r.sweep settings) herror] at hsweep
      rcases hsweep with ⟨-, -, rfl⟩ | ⟨tally, hrun, -⟩
      · rfl
      · cases hrun
    · rw [Sweep.runConfigured_of_load_ok (s := r.sweep settings) hrecipe] at hsweep
      rcases hsweep with ⟨f, hrun, rfl⟩ | ⟨tally, hrun, rfl⟩
      · dsimp only
        rw [hrun]
        exact ⟨fun _ _ => rfl, nofun⟩
      · refine ⟨fun f herror => by simp [hrun] at herror, fun other hok => ?_⟩
        obtain rfl : tally = other := Except.ok.inj (hrun.symm.trans hok)
        refine ⟨Sweep.observations_ne_nil hrun hallocators hthreads, ?_⟩
        have hcap : 255 ≤ countCap := by decide
        rw [Sweep.failures_of_run_ok hrun]
        omega

end RunBench

namespace RunAll

variable {r : Request} {settings : Settings} {host : Host} {tree : Tree}

theorem usable_of_loadSettings (h : r.loadSettings host tree = .ok settings) : Usable settings := by
  unfold Request.loadSettings at h
  split at h
  · cases h
    exact usable_standard
  · exact usable_of_load h

theorem benchmarks_suite_ne_nil (r : Request) (settings : Settings) :
    (r.suite settings).benchmarks ≠ [] := by
  unfold Request.suite
  dsimp only
  split
  · decide
  · assumption

/-- The total of a suite makes the exit code zero if nothing adds up. -/
theorem exitCode_total_eq_zero_iff (rows : List Suite.Row) :
    exitCode (Suite.total rows) = 0 ↔ Suite.sum rows = 0 := by
  have hcap : 0 < countCap := by decide
  rw [exitCode, highestCode, Suite.total_eq]
  omega

/-- The exit code of a suite that has its settings. -/
theorem code_perform_eq_zero_iff (host : Host) (colors : Bool) (r : Request) (tree : Tree) :
    (perform host colors r tree).code = 0 ↔ ∃ settings, r.loadSettings host tree = .ok settings ∧
      (r.suite settings).benchmarks ≠ [] ∧
      ∀ front name rest, (r.suite settings).benchmarks = front ++ name :: rest →
        (r.suite settings).CleanAfter host tree front name := by
  rw [perform]
  cases hload : r.loadSettings host tree with
  | error f => simp
  | ok settings =>
      obtain ⟨hallocators, hthreads⟩ := usable_of_loadSettings hload
      have hsum := (r.suite settings).sum_eq_zero_iff host hallocators hthreads
        (r.suite settings).benchmarks tree
      dsimp only
      rw [exitCode_total_eq_zero_iff, Suite.run, hsum]
      simp only [Except.ok.injEq, exists_eq_left', benchmarks_suite_ne_nil, ne_eq,
        not_false_eq_true, true_and]

end RunAll

/-- A command exits with zero only if all that it was asked for was done and ended well.
`runbench` exits with zero if it has its settings and its recipe, its sweep goes through, there is
a trial, and every trial ends well; with 1 if there is a failure; and otherwise with the number of
failed trials, up to 255.  `runall` exits with zero if it has its settings, there is a benchmark,
and for every benchmark the sweep is clean in this sense and the plotter exits with zero.  Nothing is
said of plotters that go on for ever: every run has an end. -/
theorem exit_codes (host : Host) (colors : Bool) (tree : Tree) :
    (∀ span args r, RunAll.BenchRequests args r →
      ∃ exit, RunBench.run host colors span args tree = .done exit ∧
        (exit.code = 0 ↔
          ∃ settings, r.loadSettings host tree = .ok settings ∧
            (r.sweep settings).Clean host tree) ∧
        (∀ f, r.loadSettings host tree = .error f → exit.code = 1) ∧
        ∀ settings, r.loadSettings host tree = .ok settings →
          (∀ f, Recipe.load tree r.directory = .error f → exit.code = 1) ∧
          ∀ recipe, Recipe.load tree r.directory = .ok recipe →
            let ran := (r.sweep settings).run recipe (Runner.processes host) tree ()
            let trials := (r.sweep settings).observations recipe (Runner.processes host) tree ()
            (∀ f, ran.verdict = .error f → exit.code = 1) ∧
            ∀ tally, ran.verdict = .ok tally →
              trials ≠ [] ∧ exit.code = min 255 (trials.countP Observation.failed)) ∧
      ∀ args r, RunAll.Requests args r →
        ∃ exit, RunAll.run host colors args tree = .done exit ∧
          (exit.code = 0 ↔ ∃ settings, r.loadSettings host tree = .ok settings ∧
            (r.suite settings).benchmarks ≠ [] ∧
            ∀ front name rest, (r.suite settings).benchmarks = front ++ name :: rest →
              (r.suite settings).CleanAfter host tree front name) := by
  constructor
  · rintro span args r ⟨m, hscan, rfl⟩
    refine ⟨RunBench.perform host colors span (.ofMatches m) tree, by rw [RunBench.run, hscan], ?_⟩
    exact RunBench.code_perform colors span fun settings => RunBench.usable_of_loadSettings
  · rintro args r ⟨m, hscan, rfl⟩
    refine ⟨RunAll.perform host colors (.ofMatches m) tree, by rw [RunAll.run, hscan], ?_⟩
    exact RunAll.code_perform_eq_zero_iff host colors _ tree

/-! ## A run with nothing to complain of -/

/-- A program that does nothing is a trial that ends well and writes nothing. -/
theorem processes_of_idle {t : Tree} {log : ResultLog} {trial : Trial} {timeout : Timeout}
    (htime : Program.startTime ≤ timeout.milliseconds)
    (hstart : Machine.plain.host.start (t.hold log.handle) trial.program trial.args =
      .ok (Launch.run ⟨[], trial.args⟩)) :
    (Runner.processes Machine.plain.host).run trial timeout log t () =
      ⟨.ok .success, log, t, ()⟩ := by
  have hends : (Launch.run ⟨[], trial.args⟩).EndsWithin timeout :=
    (Run.endsWithin_iff _ _).2 (.inl (Nat.add_le_add_left htime _))
  rw [Runner.processes_run_of_ok hstart, Run.seen, Run.awaited_of_endsWithin hends, Run.outcome,
    if_pos hends]
  rfl

/-- A tree with a settings file, a plotter, and a benchmark with its recipe and its program. -/
def cleanTree : Tree where
  nodes :=
    ⟨Tree.bare.nodes.rows ++
      [(["s", "bench", "tmp"], .file 0 0o644 (.bytes (utf8 "max_threads = 1\n"))),
        (["alt", "bench", "tmp"], .file 1 0o755 (.program [])),
        (["r", "bench", "tmp"], .directory 0o755),
        (["a", "r", "bench", "tmp"], .directory 0o755),
        (["config", "a", "r", "bench", "tmp"],
          .file 2 0o644 (.bytes (utf8 "[DEFAULT]\nmaxtime = 1\n"))),
        (["a-libc", "a", "r", "bench", "tmp"], .file 3 0o755 (.program []))]⟩
  workingDirectory := ["bench", "tmp"]
  nextStamp := 4
  busy := []

/-- The sweep of this benchmark by the settings file, with one iteration. -/
def cleanSweep : Sweep := ⟨⟨"r/a"⟩, "a", ["libc"], 1, 1⟩

/-- The log of its trial. -/
def cleanLog : ResultLog :=
  ⟨⟨"r/a/Results/libc/a-1"⟩, ⟨.file ["a-1", "libc", "Results", "a", "r", "bench", "tmp"] 4, 0⟩⟩

/-- The tree with an archive. -/
def archiveTree : Tree :=
  cleanTree.set ["Results", "a", "r", "bench", "tmp"] (.directory 0o755)

/-- The tree with a folder for the allocator. -/
def folderTree : Tree :=
  archiveTree.set ["libc", "Results", "a", "r", "bench", "tmp"] (.directory 0o755)

/-- The tree with the log, which stays empty. -/
def sweptTree : Tree :=
  { folderTree.set ["a-1", "libc", "Results", "a", "r", "bench", "tmp"]
      (.file 4 0o755 (.bytes [])) with
    nextStamp := 5 }

/-- The sweep goes through, and its trial ends well. -/
theorem ran_cleanTree :
    ∃ logs progress, cleanSweep.runConfigured (Runner.processes Machine.plain.host) cleanTree () =
      ⟨.ok ⟨logs, 0⟩, progress, sweptTree, ()⟩ := by
  have hload : Recipe.load cleanTree cleanSweep.directory = .ok ⟨1, []⟩ := by decide +kernel
  have hopen : Archive.open? cleanTree cleanSweep.directory =
      .ok (archiveTree, cleanSweep.archive) := by decide +kernel
  have hfolder : cleanSweep.archive.ensureFolder archiveTree "libc" = .ok folderTree := by
    decide +kernel
  have hlog : cleanSweep.archive.openLog folderTree "libc" cleanSweep.benchmark 1 =
      .ok (sweptTree, cleanLog) := by decide +kernel
  have hrunnable : (sweptTree.hold cleanLog.handle).runnable? ⟨"r/a/a-libc"⟩ =
      .ok (.program []) := by decide +kernel
  have hprogram : (cleanSweep.trial ⟨1, []⟩ "libc" 1 1).program = ⟨"r/a/a-libc"⟩ := by
    decide +kernel
  have htrial : (Runner.processes Machine.plain.host).run (cleanSweep.trial ⟨1, []⟩ "libc" 1 1)
      (Recipe.timeout ⟨1, []⟩) cleanLog sweptTree () = ⟨.ok .success, cleanLog, sweptTree, ()⟩ := by
    refine processes_of_idle (by decide) ?_
    rw [hprogram]
    exact Machine.start_program hrunnable (by decide) (by decide +kernel) (by decide) (by decide)
  have hplan : cleanSweep.plan = [.folder 0 "libc", .log 0 "libc" 1, .trial 0 "libc" 1 1] := by
    decide +kernel
  have htaken : Sweep.Taken cleanSweep ⟨1, []⟩ (Runner.processes Machine.plain.host)
      (fun _ => ⟨.success, cleanLog.path⟩) (Sweep.Desk.start archiveTree ()) cleanSweep.plan
      ⟨sweptTree, (), cleanLog⟩ := by
    rw [hplan]
    exact .cons (.folder hfolder) (.cons (.log hlog) (.cons (.trial htrial rfl rfl) .nil))
  have hran := Sweep.run_of_taken (by decide) hopen htaken
  rw [hplan] at hran
  exact ⟨_, _, (Sweep.runConfigured_of_load_ok hload).trans hran⟩

theorem clean_cleanTree : cleanSweep.Clean Machine.plain.host cleanTree := by
  obtain ⟨logs, progress, hran⟩ := ran_cleanTree
  exact (Sweep.clean_iff (by decide) (by decide)).2 ⟨⟨logs, 0⟩, by rw [hran], rfl⟩

/-- What `runall` is asked for in this tree. -/
def cleanRequest : RunAll.Request := ⟨⟨"r"⟩, 1, ["a"], some ⟨"s"⟩, some ⟨"./alt"⟩⟩

theorem cleanAfter_cleanTree :
    (cleanRequest.suite ⟨["libc"], 1⟩).CleanAfter Machine.plain.host cleanTree [] "a" := by
  obtain ⟨logs, progress, hran⟩ := ran_cleanTree
  have hsweep : (cleanRequest.suite ⟨["libc"], 1⟩).sweep "a" = cleanSweep := by decide +kernel
  have hrunnable : sweptTree.runnable? ⟨"./alt"⟩ = .ok (.program []) := by decide +kernel
  rw [Suite.CleanAfter, hsweep]
  refine ⟨clean_cleanTree, ?_⟩
  dsimp only [Suite.runAll]
  rw [hran]
  exact ⟨_, Machine.start_program hrunnable (by decide) (by decide +kernel) (by decide)
    (by decide), rfl⟩

/-- Where nothing is to complain of, both commands exit with zero. -/
theorem exit_codes_clean :
    (∃ exit, RunBench.run Machine.plain.host false RunAll.noTime
        ["r/a", "a", "1", "--settings", "s"] cleanTree = .done exit ∧ exit.code = 0) ∧
      ∃ exit, RunAll.run Machine.plain.host false
        ["r", "--plotter", "./alt", "--benchmark", "a", "--settings", "s"] cleanTree =
          .done exit ∧ exit.code = 0 := by
  have hload : Settings.load Machine.plain.complaint cleanTree ⟨"s"⟩ = .ok ⟨["libc"], 1⟩ := by
    decide +kernel
  obtain ⟨hbench, hall⟩ := exit_codes Machine.plain.host false cleanTree
  constructor
  · obtain ⟨exit, hexit, hcode, -⟩ := hbench RunAll.noTime
      ["r/a", "a", "1", "--settings", "s"] ⟨⟨"r/a"⟩, "a", 1, some ⟨"s"⟩, [], none, false⟩
      ⟨⟨["r/a", "a", "1"], [("settings", "s")]⟩, by decide +kernel, by decide +kernel⟩
    refine ⟨exit, hexit, hcode.2 ⟨⟨["libc"], 1⟩, ?_, clean_cleanTree⟩⟩
    exact congrArg (Except.map _) hload
  · obtain ⟨exit, hexit, hcode⟩ := hall
      ["r", "--plotter", "./alt", "--benchmark", "a", "--settings", "s"] cleanRequest
      ⟨⟨["r"], [("plotter", "./alt"), ("benchmark", "a"), ("settings", "s")]⟩,
        by decide +kernel, by decide +kernel⟩
    refine ⟨exit, hexit, hcode.2 ⟨⟨["libc"], 1⟩, hload, by decide, fun front name rest heq => ?_⟩⟩
    -- there is no benchmark but the first
    rcases List.singleton_eq_append_iff.1 heq with ⟨rfl, hrest⟩ | ⟨-, hrest⟩
    · obtain ⟨rfl, -⟩ := List.cons.inj hrest
      exact cleanAfter_cleanTree
    · cases hrest

end CommandLine

end BenchSweep
