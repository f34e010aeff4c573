import BenchSweep.Machine
import BenchSweep.Proofs.Runner.Endings
import BenchSweep.Proofs.Runner.Script

/-!
# What is left in a log

A log is opened, and then lines are written to it and programs are run with both their streams
going to it, in any order.  All of them share one offset, so that nothing is written over.

* `ResultLog.Use`, `Runner.useAll` : the uses of an open log, one after the other.
* `ResultLog.Used.written`, `ResultLog.Used.Right` : what each of them leaves in the log, and what
  comes of it.
* `Tree.Spares`, `ResultLog.Used.Spares` : what else is done to the files leaves the log alone.
* `Tree.InUse` : a log in the course of its uses; `Tree.InUse.carryOut` is one use.
* `Runner.log_of_uses` : the log holds what all its uses left, in order.
-/

namespace BenchSweep

/-! ## Uses -/

namespace ResultLog

/-- A use of an open log: a line is written to it, or a program is run. -/
inductive Use
  | line (text : String)
  | trial (trial : Trial) (timeout : Timeout)
  deriving DecidableEq, Repr

/-- What came of a use, with the log and the tree before it, and the tree behind it; the outcome is
that of a trial. -/
structure Used where
  use : Use
  log : ResultLog
  before : Tree
  verdict : Except Failure (Option Outcome)
  after : Tree

end ResultLog

namespace Runner

/-- Carry out one use of a log. -/
def carryOut (host : Host) (log : ResultLog) (t : Tree) :
    ResultLog.Use → ResultLog.Used × ResultLog
  | .line text =>
    match log.writeLine t text with
    | .ok (written, left) => (⟨.line text, log, t, .ok none, written⟩, left)
    | .error failure => (⟨.line text, log, t, .error failure, t⟩, log)
  | .trial trial timeout =>
    let left := (processes host).run trial timeout log t ()
    (⟨.trial trial timeout, log, t, left.verdict.map some, left.tree⟩, left.log)

@[simp] theorem use_carryOut (host : Host) (log : ResultLog) (t : Tree) (use : ResultLog.Use) :
    (carryOut host log t use).1.use = use := by
  cases use with
  | line text =>
      rw [carryOut]
      split <;> rfl
  | trial trial timeout => rfl

/-- Carry out uses of a log one after the other, whatever comes of them. -/
def useAll (host : Host) (log : ResultLog) (t : Tree) :
    List ResultLog.Use → List ResultLog.Used × ResultLog × Tree
  | [] => ([], log, t)
  | use :: rest =>
    let (used, log) := carryOut host log t use
    let (more, log, left) := useAll host log used.after rest
    (used :: more, log, left)

end Runner

/-! ## What a use has to do -/

namespace ResultLog.Used

/-- What is started for a trial, while the log is open. -/
def started (used : Used) (host : Host) (trial : Trial) : Except Fault Run :=
  host.start (used.before.hold used.log.handle) trial.program trial.args

/-- What a use leaves in the log: its line, or all that its program printed and then the annotation
of an outcome that is no success.  A program that cannot be started leaves nothing. -/
def written (host : Host) (used : Used) : List UInt8 :=
  match used.use with
  | .line text => Runner.lineBytes text
  | .trial trial timeout =>
    match used.started host trial with
    | .error _ => []
    | .ok run =>
      let outcome := run.outcome timeout
      run.printed timeout ++ (outcome.annotation.map Runner.lineBytes).getD []

/-- Does a use end as it has to?  A line is written, a program has its outcome, and one that
cannot be started is reported, with all files as they were. -/
def Right (host : Host) (used : Used) : Prop :=
  match used.use with
  | .line _ => used.verdict = .ok none
  | .trial trial timeout =>
    match used.started host trial with
    | .error fault =>
      used.verdict = .error (.programNotStarted trial.program fault) ∧ used.after = used.before
    | .ok run => used.verdict = .ok (some (run.outcome timeout))

end ResultLog.Used

/-! ## Nobody else -/

/-- A file is left alone: it is as it was, and its path still leads to it. -/
structure Tree.Spares (t t' : Tree) (p : Path) (loc : Location) : Prop where
  node : t'.node? loc = t.node? loc
  path : t.locate .use p = .ok (.found loc) → t'.locate .use p = .ok (.found loc)

/-- Of effects that happen one after the other, those that print nothing leave a file alone. -/
def Effect.AllSpare (p : Path) (loc : Location) : ResultLog × Tree → List Effect → Prop
  | _, [] => True
  | world, effect :: rest =>
    world.2.Spares (effect.changed world.2) p loc ∧
      AllSpare p loc (Runner.perform world effect) rest

/-- Effects that only print leave all files alone. -/
theorem Effect.allSpare_of_print (p : Path) (loc : Location) {effects : List Effect}
    (h : ∀ effect ∈ effects, effect.printed?.isSome) (world : ResultLog × Tree) :
    AllSpare p loc world effects := by
  induction effects generalizing world with
  | nil => trivial
  | cons effect rest ih =>
      obtain ⟨heffect, hrest⟩ := List.forall_mem_cons.1 h
      cases effect with
      | print => exact ⟨⟨rfl, id⟩, ih hrest _⟩
      | change => cases heffect

/-- Does the program of a use leave the file of the log alone, but for what it prints? -/
def ResultLog.Used.Spares (host : Host) (used : ResultLog.Used) (loc : Location) : Prop :=
  ∀ trial timeout run, used.use = .trial trial timeout → used.started host trial = .ok run →
    Effect.AllSpare used.log.path loc (used.log, used.before) (run.seen timeout)

namespace Tree

variable {t t' t'' : Tree} {loc : Location} {stamp mode : Nat} {content data : List UInt8}
  {log : ResultLog} {p : Path}

/-! ## A file that is in use -/

/-- The file at a location is open at its end, and the path of the log leads to it. -/
structure InUse (t : Tree) (log : ResultLog) (p : Path) (loc : Location) (stamp mode : Nat)
    (content : List UInt8) : Prop where
  node : t.node? loc = some (.file stamp mode (.bytes content))
  handle : log.handle = ⟨.file loc stamp, content.length⟩
  path : log.path = p
  found : t.locate .use p = .ok (.found loc)

/-- What is written goes behind all that is there. -/
theorem InUse.write (h : t.InUse log p loc stamp mode content) (data : List UInt8) :
    ∃ t' log', log.write t data = .ok (t', log') ∧
      t'.InUse log' p loc stamp mode (content ++ data) := by
  obtain ⟨hnode, hhandle, hpath, hfound⟩ := h
  by_cases hdata : data = []
  · subst hdata
    have hwrite : t.write log.handle [] = .ok (t, log.handle) := by
      rw [hhandle]
      exact write_eq_ok_iff.2 (.unseen (Or.inl rfl))
    refine ⟨t, log, by rw [ResultLog.write, hwrite], ?_⟩
    rw [List.append_nil]
    exact ⟨hnode, hhandle, hpath, hfound⟩
  · have hwrite : t.write ⟨.file loc stamp, content.length⟩ data = .ok _ :=
      write_eq_ok_iff.2 (.file hdata hnode)
    -- the offset is the length of the content, so nothing is written over
    rw [Content.data, overwrite_length, ← List.length_append, ← hhandle] at hwrite
    refine ⟨_, { log with handle := ⟨.file loc stamp, (content ++ data).length⟩ },
      by rw [ResultLog.write, hwrite], ?_, rfl, hpath, ?_⟩
    · exact t.node?_set_self (ne_nil_of_file hnode) _
    · exact (grows_set_file hnode).extends.locate hfound fun loc hvacant => by cases hvacant

theorem InUse.writeLine (h : t.InUse log p loc stamp mode content) (line : String) :
    ∃ t' log', log.writeLine t line = .ok (t', log') ∧
      t'.InUse log' p loc stamp mode (content ++ Runner.lineBytes line) :=
  h.write (Runner.lineBytes line)

/-- A file that is left alone stays in use. -/
theorem InUse.spared (h : t.InUse log p loc stamp mode content) (hspares : t.Spares t' p loc) :
    t'.InUse log p loc stamp mode content :=
  ⟨hspares.node.trans h.node, h.handle, h.path, hspares.path h.found⟩

/-! ## Programs -/

/-- What happens to a log while the effects of a program happen: what is printed is appended. -/
theorem InUse.perform (effects : List Effect) (h : t.InUse log p loc stamp mode content)
    (hspare : Effect.AllSpare p loc (log, t) effects) :
    let world := effects.foldl Runner.perform (log, t)
    world.2.InUse world.1 p loc stamp mode
      (content ++ effects.flatMap fun effect => (effect.printed?.map Prod.snd).getD []) := by
  induction effects generalizing t log content with
  | nil => simpa using h
  | cons effect rest ih =>
      obtain ⟨hspares, hspare⟩ := hspare
      rw [List.foldl_cons, List.flatMap_cons, ← List.append_assoc]
      cases effect with
      | print stream data =>
          obtain ⟨t', log', hwrite, hopen⟩ := h.write data
          have hworld : Runner.perform (log, t) (.print stream data) = (log', t') := by
            rw [Runner.perform, hwrite]
          rw [hworld] at hspare ⊢
          exact ih hopen hspare
      | change act =>
          rw [Effect.printed?, Option.map_none, Option.getD_none, List.append_nil]
          exact ih (h.spared hspares) hspare

/-- The end of a trial. -/
theorem InUse.conclude {σ : Type} (h : t.InUse log p loc stamp mode content) (outcome : Outcome)
    (state : σ) :
    let left := Runner.conclude outcome log t state
    left.verdict = .ok outcome ∧
      left.tree.InUse left.log p loc stamp mode
        (content ++ (outcome.annotation.map Runner.lineBytes).getD []) := by
  unfold Runner.conclude
  cases outcome.annotation with
  | none => exact ⟨rfl, by simpa using h⟩
  | some line =>
      obtain ⟨t', log', hwrite, hopen⟩ := h.writeLine line
      dsimp only
      rw [hwrite]
      exact ⟨rfl, hopen⟩

/-! ## One use after the other -/

/-- A use of a log. -/
theorem InUse.carryOut (host : Host) (h : t.InUse log p loc stamp mode content)
    (use : ResultLog.Use) (hspare : (Runner.carryOut host log t use).1.Spares host loc) :
    let (used, log') := Runner.carryOut host log t use
    used.Right host ∧
      used.after.InUse log' p loc stamp mode (content ++ used.written host) := by
  cases use with
  | line text =>
      obtain ⟨t', log', hwrite, hopen⟩ := h.writeLine text
      rw [Runner.carryOut, hwrite]
      exact ⟨rfl, hopen⟩
  | trial trial timeout =>
      dsimp only [Runner.carryOut] at hspare ⊢
      dsimp only [ResultLog.Used.Right, ResultLog.Used.written, ResultLog.Used.started]
      cases hstart : host.start (t.hold log.handle) trial.program trial.args with
      | error fault =>
          rw [Runner.processes_run_of_error hstart]
          exact ⟨⟨rfl, rfl⟩, by simpa using h⟩
      | ok run =>
          have hopen := h.perform (run.seen timeout) (h.path ▸ hspare trial timeout run rfl hstart)
          obtain ⟨hverdict, hopen⟩ := hopen.conclude (run.outcome timeout) ()
          rw [Runner.processes_run_of_ok hstart]
          dsimp only
          rw [← List.append_assoc]
          exact ⟨congrArg (Except.map some) hverdict, hopen⟩

/-- All uses of a log. -/
theorem InUse.useAll (host : Host) (h : t.InUse log p loc stamp mode content)
    (uses : List ResultLog.Use)
    (hspare : ∀ used ∈ (Runner.useAll host log t uses).1, used.Spares host loc) :
    let (made, log', left) := Runner.useAll host log t uses
    made.map (·.use) = uses ∧ (∀ used ∈ made, used.Right host) ∧
      left.InUse log' p loc stamp mode (content ++ made.flatMap (·.written host)) := by
  induction uses generalizing t log content with
  | nil => exact ⟨rfl, List.forall_mem_nil _, by simpa [Runner.useAll] using h⟩
  | cons use rest ih =>
      obtain ⟨hright, hopen⟩ := h.carryOut host use (hspare _ List.mem_cons_self)
      obtain ⟨huses, hrights, hopen⟩ := ih hopen fun used hmem =>
        hspare used (List.mem_cons_of_mem _ hmem)
      refine ⟨?_, ?_, ?_⟩
      · exact congrArg₂ List.cons (Runner.use_carryOut host log t use) huses
      · exact List.forall_mem_cons.2 ⟨hright, hrights⟩
      · dsimp only [Runner.useAll]
        rw [List.flatMap_cons, ← List.append_assoc]
        exact hopen

/-- The path of a log that is in use leads to what is in it. -/
theorem InUse.stat? (h : t.InUse log p loc stamp mode content)
    (hnul : Path.holdsNul p.text = false) :
    t.stat? p = some (.file stamp mode (.bytes content)) := by
  rw [Tree.stat?, if_neg (by simp [hnul]), h.found]
  exact h.node

end Tree

namespace Runner

/-! ## A log and its uses -/

/-- A log that was opened on a file is in use, without any content yet. -/
theorem inUse_of_openLog {a : Archive} {t opened : Tree} {log : ResultLog}
    {allocator benchmark : String} {threads stamp : Nat} {loc : Location}
    (hopen : a.openLog t allocator benchmark threads = .ok (opened, log))
    (hfile : log.handle.target = .file loc stamp) :
    (∃ mode, opened.InUse log log.path loc stamp mode []) ∧
      Path.holdsNul log.path.text = false := by
  obtain ⟨hopen, hpath⟩ := Archive.openLog_ok hopen
  obtain ⟨hnul, hopens⟩ := Tree.openTruncated_eq_ok_iff.1 hopen
  obtain ⟨hoffset, ⟨mode, hnode⟩, hspot⟩ := hopens.file hfile
  rw [← hpath] at hnul hspot
  obtain ⟨path, ⟨target, offset⟩⟩ := log
  obtain rfl : target = _ := hfile
  obtain rfl : offset = 0 := hoffset
  exact ⟨⟨mode, hnode, rfl, rfl, Tree.locate_use hspot⟩, hnul⟩

/-- A log that was opened on a file holds what its uses leave in it, in their order: every line,
and of every trial whose program was started all that this printed and the annotation of its
outcome.  All uses are carried out and end as they have to, also behind a program that could not
be started.  Nobody else writes to the file or moves it away. -/
theorem log_of_uses {host : Host} {a : Archive} {t opened : Tree} {log : ResultLog}
    {allocator benchmark : String} {threads stamp : Nat} {loc : Location}
    (hopen : a.openLog t allocator benchmark threads = .ok (opened, log))
    (hfile : log.handle.target = .file loc stamp) (uses : List ResultLog.Use)
    (halone : ∀ used ∈ (useAll host log opened uses).1, used.Spares host loc) :
    ∃ made last left, useAll host log opened uses = (made, last, left) ∧
      made.map (·.use) = uses ∧ (∀ used ∈ made, used.Right host) ∧
        ∃ mode, left.stat? log.path =
          some (.file stamp mode (.bytes (made.flatMap (·.written host)))) := by
  obtain ⟨⟨mode, hstart⟩, hnul⟩ := inUse_of_openLog hopen hfile
  obtain ⟨huses, hright, hleft⟩ := hstart.useAll host uses halone
  exact ⟨_, _, _, rfl, huses, hright, mode, hleft.stat? hnul⟩

/-- A tree with the folder of an allocator and a program. -/
def folderTree (script : Program) : Tree :=
  let folders := (Tree.bare.set ["Results", "bench", "tmp"] (.directory 0o755)).set
    ["libc", "Results", "bench", "tmp"] (.directory 0o755)
  { folders.set ["p", "bench", "tmp"] (.file 0 0o755 (.program script)) with nextStamp := 1 }

/-- A trial of a program of the working directory. -/
def folderTrial (name : String) : Trial := ⟨"libc", 1, 1, ⟨"./" ++ name⟩, []⟩

/-- The log of these trials. -/
def folderLog : ResultLog :=
  ⟨⟨"./Results/libc/b-1"⟩, ⟨.file ["b-1", "libc", "Results", "bench", "tmp"] 1, 0⟩⟩

/-- The tree with this log. -/
def loggedTree (script : Program) : Tree :=
  ((folderTree script).createAt ["b-1", "libc", "Results", "bench", "tmp"] Tree.resultMode).1

theorem openLog_folderTree (script : Program) :
    (Archive.ofDirectory ⟨"."⟩).openLog (folderTree script) "libc" "b" 1 =
      .ok (loggedTree script, folderLog) :=
  rfl

/-- What is started by a program of the working directory. -/
theorem start_folderTrial {tree : Tree} (script : Program)
    (h : tree.runnable? ⟨"./p"⟩ = .ok (.program script)) :
    Machine.plain.host.start tree (folderTrial "p").program (folderTrial "p").args =
      .ok (Launch.run ⟨script, []⟩) :=
  Machine.start_program h (by decide) (by decide) (by decide) (by decide)

/-- A line, a program that is not there, another line, and a program that fails. -/
theorem log_of_uses_lines :
    let script : Program := [.print .err (utf8 "no\n"), .exit 2]
    let uses : List ResultLog.Use := [.line "x", .trial (folderTrial "q") ⟨5000⟩, .line "y",
      .trial (folderTrial "p") ⟨5000⟩]
    let host := Machine.plain.host
    (Archive.ofDirectory ⟨"."⟩).openLog (folderTree script) "libc" "b" 1 =
        .ok (loggedTree script, folderLog) ∧
      ∃ made last left, useAll host folderLog (loggedTree script) uses = (made, last, left) ∧
        made.map (·.use) = uses ∧ (∀ used ∈ made, used.Right host) ∧
          ∃ mode, left.stat? folderLog.path =
            some (.file 1 mode (.bytes (made.flatMap (·.written host)))) := by
  intro script uses host
  have hopen := openLog_folderTree script
  refine ⟨hopen, log_of_uses hopen rfl uses (List.forall_mem_cons.2 ⟨?_, List.forall_mem_cons.2
    ⟨?_, List.forall_mem_cons.2 ⟨?_, List.forall_mem_singleton.2 ?_⟩⟩⟩)⟩
  · rintro trial timeout run ⟨⟩
  · -- there is no such program
    rintro trial timeout run ⟨⟩ ⟨⟩
  · rintro trial timeout run ⟨⟩
  · -- the one program that is started does nothing but print
    rintro trial timeout run ⟨⟩ hrun
    cases (start_folderTrial script rfl).symm.trans hrun
    have hprints : ∀ effect ∈ (Launch.run ⟨script, []⟩).seen ⟨5000⟩, effect.printed?.isSome := by
      decide +kernel
    apply Effect.allSpare_of_print
    exact hprints

/-- A tree in which the place of a log is a link to a device that takes nothing. -/
def fullTree : Tree :=
  (folderTree [.exit 2]).set ["b-1", "libc", "Results", "bench", "tmp"] (.link "/dev/full")

/-- A program that was started and has exited has no outcome if its log is such a device. -/
theorem full_log_refuses :
    let host := Machine.plain.host
    let log : ResultLog := ⟨⟨"./Results/libc/b-1"⟩, ⟨.device .full, 0⟩⟩
    let run : Run := ⟨0, [], 1, .exited 2⟩
    (Archive.ofDirectory ⟨"."⟩).openLog fullTree "libc" "b" 1 = .ok (fullTree, log) ∧
      run.EndsWithin ⟨5000⟩ ∧
      ∃ used, (useAll host log fullTree [.trial (folderTrial "p") ⟨5000⟩]).1 = [used] ∧
        used.started host (folderTrial "p") = .ok run ∧
        used.verdict = .error (.logNotWritten ⟨"./Results/libc/b-1"⟩ (.system .noSpace)) ∧
        ¬ used.Right host := by
  intro host log run
  have hstart : host.start (fullTree.hold log.handle) (folderTrial "p").program
      (folderTrial "p").args = .ok run :=
    start_folderTrial [.exit 2] rfl
  have hrun : ((processes host).run (folderTrial "p") ⟨5000⟩ log fullTree ()).verdict =
      .error (.logNotWritten ⟨"./Results/libc/b-1"⟩ (.system .noSpace)) := by
    rw [processes_run_of_ok hstart]
    decide +kernel
  refine ⟨by decide +kernel, by decide +kernel, _, rfl, hstart, congrArg (Except.map some) hrun,
    fun hright => ?_⟩
  simp only [ResultLog.Used.Right, ResultLog.Used.started] at hright
  rw [hstart, hrun] at hright
  cases hright

end Runner

end BenchSweep
