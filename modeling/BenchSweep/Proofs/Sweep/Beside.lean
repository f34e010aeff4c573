import BenchSweep.Proofs.Files.Alike
import BenchSweep.Proofs.Sweep.Places

/-!
# Two sweeps beside one another

A sweep reads and writes below its directory only: from two trees that are alike there it goes the
same way, however far it comes, and it changes nothing but its results.

* `Runner.ByTrial` : a runner of which what it says of a trial depends on the trial alone.
* `ResultLog.Alike` : two logs that are open on the same content.
* `Sweep.Alongside` : two sweeps between the same two steps; `Alongside.takes` and
  `Alongside.fails` say that they take the next step alike, and `Alongside.taken` that they stay
  alike.
* `Sweep.run_beside` : both sweeps end in the same way, and leave trees that are alike.
-/

namespace BenchSweep

open BenchSweep.Tree

variable {σ : Type} {t u : Tree} {dir : Path} {D : Location} {area : Location → Prop}
  {log log' : ResultLog}

/-! ## Logs -/

/-- Two logs at the same place, open on files that hold the same. -/
structure ResultLog.Alike (area : Location → Prop) (t u : Tree) (log log' : ResultLog) : Prop where
  path : log.path = log'.path
  handle : Handle.Alike area t u log.handle log'.handle

theorem ResultLog.Alike.writeLine (hlog : log.Alike area t u log') (h : Beside dir D t u)
    (line : String) :
    BothEnd (fun x y => Onward dir D area t u x.1 y.1 ∧ Alike area x.1 y.1 x.2 y.2)
      (log.writeLine t line) (log'.writeLine u line) := by
  have hwrite := h.write hlog.handle (utf8 (line ++ "\n"))
  rw [ResultLog.writeLine, ResultLog.writeLine, ResultLog.write, ResultLog.write, hlog.path]
  generalize t.write log.handle _ = x, u.write log'.handle _ = y at hwrite ⊢
  cases hwrite with
  | failed e => exact .failed _
  | done hwrite => exact .done ⟨hwrite.1, rfl, hwrite.2⟩

/-! ## Runners -/

namespace Runner

/-- What a runner says of a trial: the lines that it writes, and its verdict once they are written
or one of them was refused. -/
structure Said where
  lines : List String
  verdict : Except Failure Unit → Except Failure Outcome

/-- Write the lines that are said of a trial, up to the first that the log does not take. -/
def say (said : Said) (log : ResultLog) (t : Tree) (state : σ) : Attempt σ :=
  let (written, log, t) := writeLines log t said.lines
  ⟨said.verdict written, log, t, state⟩

/-- What the runner says of a trial depends on the trial and its time limit alone: neither on its
state, nor on the files, nor on the log. -/
def ByTrial (r : Runner σ) (said : Trial → Timeout → Said) : Prop :=
  ∀ trial timeout log t state, ∃ left,
    r.run trial timeout log t state = say (said trial timeout) log t left

/-- The runner that says what it is told to say. -/
def telling (said : Trial → Timeout → Said) : Runner Unit where
  run trial timeout log t state := say (said trial timeout) log t state

theorem byTrial_telling (said : Trial → Timeout → Said) : (telling said).ByTrial said :=
  fun _ _ _ _ state => ⟨state, rfl⟩

/-- Without a script every trial goes well and nothing is written. -/
theorem byTrial_scripted_nil : (scripted []).ByTrial fun _ _ => ⟨[], fun _ => .ok .success⟩ :=
  fun _ _ _ _ count => ⟨count + 1, rfl⟩

theorem writeLines_alike (h : Beside dir D t u) (hlog : log.Alike area t u log')
    (lines : List String) :
    let written := writeLines log t lines
    let written' := writeLines log' u lines
    written.1 = written'.1 ∧ Onward dir D area t u written.2.2 written'.2.2 ∧
      written.2.1.Alike area written.2.2 written'.2.2 written'.2.1 := by
  induction lines generalizing t u log log' with
  | nil => exact ⟨rfl, h.onward, hlog⟩
  | cons line rest ih =>
      have hline := hlog.writeLine h line
      rw [writeLines, writeLines]
      generalize log.writeLine t line = x, log'.writeLine u line = y at hline ⊢
      cases hline with
      | failed f => exact ⟨rfl, h.onward, hlog⟩
      | done hline =>
          obtain ⟨hverdict, honward, hlog⟩ := ih hline.1.beside hline.2
          exact ⟨hverdict, hline.1.trans honward, hlog⟩

end Runner

namespace Sweep

variable {s : Sweep} {recipe : Recipe} {runner : Runner σ} {reply : Step → Reply} {step : Step}
  {steps : List Step} {d d' e : Desk σ} {f : Failure} {said : Trial → Timeout → Runner.Said}

/-! ## Steps -/

/-- The names of the benchmark and of the allocators are single components. -/
structure Named (s : Sweep) : Prop where
  benchmark : IsComponent s.benchmark
  allocators : ∀ a ∈ s.allocators, IsComponent a

/-- Is the location that of the results of a benchmark, or below it? -/
def InResults (D loc : Location) : Prop := resultsAt D <:+ loc

/-- Two sweeps between the same two steps, alike below their directory. -/
structure Alongside (s : Sweep) (D : Location) (d e : Desk σ) : Prop where
  tree : Beside s.directory D d.tree e.tree
  log : d.log.Alike (InResults D) d.tree e.tree e.log

theorem below_root (s : Sweep) (D : Location) :
    s.directory.Below D s.archive.root (resultsAt D) :=
  .join .self Archive.isComponent_directoryName

theorem Alongside.openLog (h : Alongside s D d e) (hs : s.Named) {a : String} (ha : IsComponent a)
    (n : Nat) :
    BothEnd (fun x y => Onward s.directory D (InResults D) d.tree e.tree x.1 y.1 ∧
        x.2.Alike (InResults D) x.1 y.1 y.2)
      (s.archive.openLog d.tree a s.benchmark n) (s.archive.openLog e.tree a s.benchmark n) := by
  have hname := Archive.isComponent_logName hs.benchmark.2.1 n
  have harea : InResults D (s.logAt D a n) := (List.suffix_cons a _).trans (List.suffix_cons _ _)
  have hfolder : s.directory.Below D (s.archive.folder a) (folderAt D a) := (s.below_root D).join ha
  have hopen := h.tree.openTruncated hfolder hname harea
  dsimp only [Archive.openLog]
  rw [Archive.logPath]
  generalize d.tree.openTruncated _ = x, e.tree.openTruncated _ = y at hopen ⊢
  cases hopen with
  | failed fault => exact .failed _
  | done hopen => exact .done ⟨hopen.1, rfl, hopen.2⟩

/-- A trial that is carried out in both sweeps. -/
theorem Alongside.attempt (h : Alongside s D d e) (hrunner : runner.ByTrial said) (trial : Trial)
    (timeout : Timeout) :
    let left := runner.run trial timeout d.log d.tree d.state
    let left' := runner.run trial timeout e.log e.tree e.state
    left.verdict = left'.verdict ∧
      Onward s.directory D (InResults D) d.tree e.tree left.tree left'.tree ∧
      left.log.Alike (InResults D) left.tree left'.tree left'.log := by
  obtain ⟨state, hrun⟩ := hrunner trial timeout d.log d.tree d.state
  obtain ⟨state', hrun'⟩ := hrunner trial timeout e.log e.tree e.state
  obtain ⟨hverdict, honward, hlog⟩ :=
    Runner.writeLines_alike h.tree h.log (said trial timeout).lines
  rw [hrun, hrun']
  exact ⟨congrArg (said trial timeout).verdict hverdict, honward, hlog⟩

/-- The archive of the directory is opened in both trees, or in none of them for the same reason. -/
theorem open?_beside (h : Beside s.directory D t u) :
    BothEnd (fun x y => Onward s.directory D (InResults D) t u x.1 y.1 ∧ x.2 = y.2)
      (Archive.open? t s.directory) (Archive.open? u s.directory) := by
  have harea : InResults D (Archive.directoryName :: D) := List.suffix_refl _
  have hmade := h.ensureDirectory .self Archive.isComponent_directoryName harea
  rw [Archive.open?_eq, Archive.open?_eq]
  generalize ensureDirectory t _ = x, ensureDirectory u _ = y at hmade ⊢
  cases hmade with
  | failed f => exact .failed f
  | done hmade => exact .done ⟨hmade, rfl⟩

/-- A step that one sweep takes is taken by the other. -/
theorem Alongside.takes (h : Alongside s D d e) (hs : s.Named) (hrunner : runner.ByTrial said)
    (hplanned : s.Planned step) (hstep : Takes s recipe runner reply d step d') :
    ∃ e', Takes s recipe runner reply e step e' ∧ Alongside s D d' e' ∧
      Onward s.directory D (InResults D) d.tree e.tree d'.tree e'.tree := by
  cases hstep with
  | @folder p a tree hmade =>
      have ha := hs.allocators a (List.mem_of_getElem? hplanned)
      have harea : InResults D (folderAt D a) := List.suffix_cons a _
      have hboth := h.tree.ensureDirectory (s.below_root D) ha harea
      obtain ⟨tree', hmade', honward⟩ := hboth.exists_of_ok hmade
      refine ⟨_, .folder hmade', ⟨honward.beside, h.log.path, ?_⟩, honward⟩
      exact h.log.handle.ensureDirectory hmade hmade'
  | @log p a n tree log hopen =>
      have ha := hs.allocators a (List.mem_of_getElem? hplanned.1)
      obtain ⟨⟨tree', log'⟩, hopen', honward, hlog⟩ := (h.openLog hs ha n).exists_of_ok hopen
      exact ⟨_, .log hopen', ⟨honward.beside, hlog⟩, honward⟩
  | @trial p a n i left hrun hv hl =>
      obtain ⟨hverdict, honward, hlog⟩ :=
        h.attempt hrunner (s.trial recipe a n i) recipe.timeout
      rw [hrun] at hverdict honward hlog
      exact ⟨_, .trial rfl (hverdict.symm.trans hv) (hlog.path.symm.trans hl),
        ⟨honward.beside, hlog⟩, honward⟩

/-- A step that fails in one sweep fails in the other, for the same reason. -/
theorem Alongside.fails (h : Alongside s D d e) (hs : s.Named) (hrunner : runner.ByTrial said)
    (hplanned : s.Planned step) (hstep : Fails s recipe runner d step f d') :
    ∃ e', Fails s recipe runner e step f e' ∧
      Onward s.directory D (InResults D) d.tree e.tree d'.tree e'.tree := by
  cases hstep with
  | @folder p a f hfailed =>
      have ha := hs.allocators a (List.mem_of_getElem? hplanned)
      have harea : InResults D (folderAt D a) := List.suffix_cons a _
      have hboth := h.tree.ensureDirectory (s.below_root D) ha harea
      exact ⟨e, .folder (hboth.error_of_error hfailed), h.tree.onward⟩
  | @log p a n f hfailed =>
      have ha := hs.allocators a (List.mem_of_getElem? hplanned.1)
      exact ⟨e, .log ((h.openLog hs ha n).error_of_error hfailed), h.tree.onward⟩
  | @trial p a n i left f hrun hv =>
      obtain ⟨hverdict, honward, -⟩ :=
        h.attempt hrunner (s.trial recipe a n i) recipe.timeout
      rw [hrun] at hverdict honward
      exact ⟨_, .trial rfl (hverdict.symm.trans hv), honward⟩

/-- Steps that one sweep takes are taken by the other. -/
theorem Alongside.taken (h : Alongside s D d e) (hs : s.Named) (hrunner : runner.ByTrial said)
    (hplanned : ∀ step ∈ steps, s.Planned step) (htaken : Taken s recipe runner reply d steps d') :
    ∃ e', Taken s recipe runner reply e steps e' ∧ Alongside s D d' e' ∧
      Onward s.directory D (InResults D) d.tree e.tree d'.tree e'.tree := by
  induction htaken generalizing e with
  | nil => exact ⟨e, .nil, h, h.tree.onward⟩
  | cons hstep _ ih =>
      obtain ⟨hfirst, hrest⟩ := List.forall_mem_cons.1 hplanned
      obtain ⟨e', hstep', h', honward⟩ := h.takes hs hrunner hfirst hstep
      obtain ⟨e'', htaken', h'', honward'⟩ := ih h' hrest
      exact ⟨e'', .cons hstep' htaken', h'', honward.trans honward'⟩

/-! ## Runs -/

/-- Two sweeps by the same recipe, from trees that are alike below the directory. -/
theorem run_beside (hs : s.Named) (hrunner : runner.ByTrial said) (h : Beside s.directory D t u)
    (recipe : Recipe) (state state' : σ) :
    let ran := s.run recipe runner t state
    let ran' := s.run recipe runner u state'
    ran'.verdict = ran.verdict ∧ ran'.progress = ran.progress ∧
      Onward s.directory D (InResults D) t u ran.tree ran'.tree := by
  by_cases hi : s.iterations = 0
  · rw [run_of_no_iterations hi, run_of_no_iterations hi]
    exact ⟨rfl, rfl, h.onward⟩
  rcases s.run_cases recipe runner t state with ⟨f, hopen⟩ | ⟨made, hopen, hcases⟩
  · rw [run_of_open_error hi hopen, run_of_open_error hi ((open?_beside h).error_of_error hopen)]
    exact ⟨rfl, rfl, h.onward⟩
  obtain ⟨⟨made', archive⟩, hopen', honward, harchive⟩ := (open?_beside h).exists_of_ok hopen
  obtain rfl : s.archive = archive := harchive
  have hstart : Alongside s D (Desk.start made state) (Desk.start made' state') :=
    ⟨honward.beside, rfl, .device⟩
  have hplanned : ∀ step ∈ s.plan, s.Planned step := fun step hstep => mem_plan.1 hstep
  rcases hcases with ⟨reply, d, ht⟩ | ⟨reply, done, step, rest, d, f, d', hplan, ht, hf⟩
  · obtain ⟨e, ht', -, honward'⟩ := hstart.taken hs hrunner hplanned ht
    rw [run_of_taken hi hopen ht, run_of_taken hi hopen' ht']
    exact ⟨rfl, rfl, honward.trans honward'⟩
  · rw [hplan] at hplanned
    obtain ⟨hdone, hrest⟩ := List.forall_mem_append.1 hplanned
    obtain ⟨e, ht', halong, honward'⟩ := hstart.taken hs hrunner hdone ht
    obtain ⟨e', hf', honward''⟩ := halong.fails hs hrunner (List.forall_mem_cons.1 hrest).1 hf
    rw [run_of_fails hi hopen hplan ht hf, run_of_fails hi hopen' hplan ht' hf']
    exact ⟨rfl, rfl, honward.trans (honward'.trans honward'')⟩

/-- Two sweeps by the recipe in their directory, from trees that are alike below it. -/
theorem runConfigured_beside (hs : s.Named) (hrunner : runner.ByTrial said)
    (h : Beside s.directory D t u) (state state' : σ) :
    let ran := s.runConfigured runner t state
    let ran' := s.runConfigured runner u state'
    ran'.verdict = ran.verdict ∧ ran'.progress = ran.progress ∧
      Onward s.directory D (InResults D) t u ran.tree ran'.tree := by
  have hload := h.load
  cases hrecipe : Recipe.load t s.directory with
  | error f =>
      rw [runConfigured_of_load_error hrecipe, runConfigured_of_load_error (hload ▸ hrecipe)]
      exact ⟨rfl, rfl, h.onward⟩
  | ok recipe =>
      rw [runConfigured_of_load_ok hrecipe, runConfigured_of_load_ok (hload ▸ hrecipe)]
      exact run_beside hs hrunner h recipe state state'

end Sweep

end BenchSweep
