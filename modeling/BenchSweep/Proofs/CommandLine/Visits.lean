import BenchSweep.CommandLine.RunAll
import BenchSweep.CommandLine.RunBench
import BenchSweep.Machine
import BenchSweep.Proofs.Suite.Stages

/-!
# A suite, benchmark by benchmark

`runall` does what `runbench` and the plotter do when they are run for one benchmark after
the other.

* `RunAll.Visits` : the benchmarks of a suite, each swept by `runbench` and then plotted.
* `RunAll.run_visits` : `runall` leaves the same tree, exits with the sum of all statuses up
  to a cap, and prints what they print.
* `RunAll.plotter_speaks` : the plotter prints to the streams of `runall` itself.
-/

namespace BenchSweep

namespace CommandLine

/-! ## Outputs -/

namespace Output

@[simp] theorem stdout_append (a b : Output) : (a ++ b).stdout = a.stdout ++ b.stdout := rfl

@[simp] theorem stderr_append (a b : Output) : (a ++ b).stderr = a.stderr ++ b.stderr := rfl

@[simp] theorem stdout_line_out (s : String) : (line .out s).stdout = utf8 (s ++ "\n") := rfl

@[simp] theorem stderr_line_out (s : String) : (line .out s).stderr = [] := rfl

@[simp] theorem stdout_line_err (s : String) : (line .err s).stdout = [] := rfl

@[simp] theorem stderr_line_err (s : String) : (line .err s).stderr = utf8 (s ++ "\n") := rfl

@[simp] theorem stdout_bytes (stream : Stream) (data : List UInt8) :
    (bytes stream data).stdout = if stream = .out then data else [] := by
  cases stream <;> rfl

@[simp] theorem stderr_bytes (stream : Stream) (data : List UInt8) :
    (bytes stream data).stderr = if stream = .err then data else [] := by
  cases stream <;> rfl

@[simp] theorem stdout_concat (outputs : List Output) :
    (concat outputs).stdout = outputs.flatMap stdout := by
  induction outputs with
  | nil => rfl
  | cons a rest ih =>
      rw [List.flatMap_cons, ← ih]
      rfl

@[simp] theorem stderr_concat (outputs : List Output) :
    (concat outputs).stderr = outputs.flatMap stderr := by
  induction outputs with
  | nil => rfl
  | cons a rest ih =>
      rw [List.flatMap_cons, ← ih]
      rfl

@[simp] theorem stdout_none : none.stdout = [] := rfl

@[simp] theorem stderr_none : none.stderr = [] := rfl

end Output

/-- The lines that a user sees of the progress of a sweep. -/
def progressLines (colors : Bool) (progress : List Progress) : List UInt8 :=
  progress.flatMap fun p => ((p.line? colors).map fun line => utf8 (line ++ "\n")).getD []

theorem stdout_progressOutput (colors : Bool) (s : Sweep) (progress : List Progress) :
    (RunBench.progressOutput colors .out s progress).stdout =
      utf8 (Sweep.banner colors s.directory s.iterations ++ "\n") ++
        progressLines colors progress := by
  rw [RunBench.progressOutput, Output.stdout_append, Output.stdout_line_out, Output.stdout_concat,
    progressLines]
  congr 1
  induction progress with
  | nil => rfl
  | cons p rest ih => cases hline : p.line? colors <;> simp [hline, ih]

theorem stderr_progressOutput (colors : Bool) (s : Sweep) (progress : List Progress) :
    (RunBench.progressOutput colors .out s progress).stderr = [] := by
  rw [RunBench.progressOutput, Output.stderr_append, Output.stderr_line_out, Output.stderr_concat]
  induction progress with
  | nil => rfl
  | cons p rest ih =>
      cases hline : p.line? colors with
      | none => simpa [hline] using ih
      | some text => simpa [hline] using ih

namespace RunAll

/-! ## One benchmark -/

/-- What `runbench` prints behind the progress of a sweep: the summary of one that went
through. -/
def summaryLine (colors : Bool) (span : Span) (s : Sweep) (verdict : Except Failure Tally) :
    List UInt8 :=
  match verdict with
  | .ok tally => utf8 ((Report.ofTally s tally span).summary colors ++ "\n")
  | .error _ => []

/-- The complaint of a sweep that did not go through. -/
def complaint (verdict : Except Failure Tally) : List UInt8 :=
  match verdict with
  | .ok _ => []
  | .error failure => utf8 (failure.message ++ "\n")

/-- Are the arguments accepted, and make the request? -/
def Requests (args : List String) (r : Request) : Prop :=
  ∃ m, grammar.scan args = .ok m ∧ Request.ofMatches m = r

/-- The same for the arguments of `runbench`. -/
def BenchRequests (args : List String) (r : RunBench.Request) : Prop :=
  ∃ m, RunBench.grammar.scan args = .ok m ∧ RunBench.Request.ofMatches m = r

/-- The same request for one benchmark alone. -/
def Request.bench (r : Request) (name : String) : RunBench.Request where
  directory := r.root.join name
  benchmark := name
  iterations := r.iterations
  settings := r.settings
  allocators := []
  maxThreads := none
  json := false

section

variable {r : Request} {settings : Settings} {host : Host} {tree : Tree}

theorem loadSettings_bench (name : String) (h : r.loadSettings host tree = .ok settings) :
    (r.bench name).loadSettings host tree = .ok settings := by
  unfold Request.loadSettings at h
  unfold RunBench.Request.loadSettings
  rw [Request.bench]
  cases hs : r.settings with
  | none =>
      rw [hs] at h
      exact h
  | some path =>
      rw [hs] at h
      dsimp only at h ⊢
      rw [h]
      rfl

/-- What `runbench` does for a benchmark of a suite. -/
theorem perform_bench (colors : Bool) (span : Span) (name : String)
    (h : r.loadSettings host tree = .ok settings) :
    let s := (r.suite settings).sweep name
    let ran := s.runConfigured (Runner.processes host) tree ()
    let exit := RunBench.perform host colors span (r.bench name) tree
    exit.tree = ran.tree ∧ exit.code = min (Suite.sweepStatus ran.verdict) 255 ∧
      exit.output.stdout = (RunBench.progressOutput colors .out s ran.progress).stdout ++
        summaryLine colors span s ran.verdict ∧
      exit.output.stderr = complaint ran.verdict := by
  dsimp only
  rw [RunBench.perform, loadSettings_bench name h]
  dsimp only
  rw [show (r.bench name).sweep settings = (r.suite settings).sweep name from rfl]
  generalize ((r.suite settings).sweep name).runConfigured (Runner.processes host) tree () = ran
  obtain ⟨verdict, progress, left, state⟩ := ran
  have hsilent := stderr_progressOutput colors ((r.suite settings).sweep name) progress
  cases verdict with
  | error failure =>
      refine ⟨rfl, rfl, rfl, ?_⟩
      show (RunBench.progressOutput colors .out _ progress).stderr ++ _ = _
      rw [hsilent]
      rfl
  | ok tally =>
      refine ⟨rfl, rfl, rfl, ?_⟩
      show (RunBench.progressOutput colors .out _ progress).stderr ++ [] = _
      rw [hsilent]
      rfl

end

/-- What is printed of the progress in a suite. -/
theorem output_progress (colors : Bool) (s : Suite) (progress : List Progress) :
    ((progress.map Suite.Notice.progress).map (noticeOutput colors s)).flatMap Output.stdout =
        progressLines colors progress ∧
      ((progress.map Suite.Notice.progress).map (noticeOutput colors s)).flatMap Output.stderr =
        [] := by
  unfold progressLines
  induction progress with
  | nil => exact ⟨rfl, rfl⟩
  | cons p rest ih =>
      obtain ⟨hout, herr⟩ := ih
      simp only [List.map_cons, List.flatMap_cons, hout, herr]
      cases hline : p.line? colors <;> simp [noticeOutput, hline]

/-- What is printed of a sweep that did not go through. -/
theorem output_failureNotice (colors : Bool) (s : Suite) (name : String)
    (verdict : Except Failure Tally) :
    ((Suite.failureNotice name verdict).map (noticeOutput colors s)).flatMap Output.stdout = [] ∧
      ((Suite.failureNotice name verdict).map (noticeOutput colors s)).flatMap Output.stderr =
        complaint verdict := by
  cases verdict with
  | ok tally => exact ⟨rfl, rfl⟩
  | error failure => simp [Suite.failureNotice, noticeOutput, complaint]

/-- What is printed of a plotter: what it wrote itself, and its status. -/
theorem output_plotted (colors : Bool) (s : Suite) (name : String) (plot : Suite.Plot) :
    (noticeOutput colors s (.plotted name plot.status plot.printed)).stdout =
        plot.written .out ++ utf8 (Text.decimalText plot.status ++ "\n") ∧
      (noticeOutput colors s (.plotted name plot.status plot.printed)).stderr =
        plot.written .err := by
  simp [noticeOutput, Suite.Plot.written, List.flatMap_map]

/-- What `runall` prints of a benchmark: its name, what `runbench` prints of the progress and
of a failure, and what the plotter prints. -/
theorem output_runOne (colors : Bool) (s : Suite) (host : Host) (tree : Tree) (name : String) :
    let ran := (s.sweep name).runConfigured (Runner.processes host) tree ()
    let plot := s.plot host ran.tree name
    let outputs := (s.runOne host (Runner.processes host) tree () name).2.1.map
      (noticeOutput colors s)
    outputs.flatMap Output.stdout =
        utf8 ("benchmark name = " ++ name ++ "\n") ++
          (RunBench.progressOutput colors .out (s.sweep name) ran.progress).stdout ++
          plot.written .out ++ utf8 (Text.decimalText plot.status ++ "\n") ∧
      outputs.flatMap Output.stderr = complaint ran.verdict ++ plot.written .err := by
  dsimp only [Suite.runOne]
  generalize (s.sweep name).runConfigured (Runner.processes host) tree () = ran
  obtain ⟨hprogress, hsilent⟩ := output_progress colors s ran.progress
  obtain ⟨hquiet, hfailure⟩ := output_failureNotice colors s name ran.verdict
  obtain ⟨hout, herr⟩ := output_plotted colors s name (s.plot host ran.tree name)
  have hname : noticeOutput colors s (.benchmark name) =
      .line .out ("benchmark name = " ++ name) ++
        .line .out (Sweep.banner colors (s.sweep name).directory (s.sweep name).iterations) := rfl
  rw [stdout_progressOutput]
  simp only [List.map_append, List.map_cons, List.map_nil, List.flatMap_append, List.flatMap_cons,
    List.flatMap_nil, hprogress, hsilent, hquiet, hfailure, hout, herr, hname,
    Output.stdout_append, Output.stderr_append, Output.stdout_line_out, Output.stderr_line_out,
    List.append_assoc, List.nil_append, List.append_nil, and_self]

/-! ## All benchmarks -/

/-- A benchmark that was swept by `runbench` and then plotted: what `runbench` answered, what
it printed in front of the summary, and the plotter that ran after it. -/
structure Visit where
  name : String
  span : Span
  exit : Exit
  shown : List UInt8
  plot : Suite.Plot

/-- The visit of a benchmark by `runbench`, with the arguments that `bench` has for it, and by
the plotter of the suite. -/
structure Visit.From (v : Visit) (host : Host) (colors : Bool) (s : Suite)
    (bench : String → List String) (tree : Tree) : Prop where
  exit : RunBench.run host colors v.span (bench v.name) tree = .done v.exit
  shown : v.exit.output.stdout = v.shown ++ summaryLine colors v.span (s.sweep v.name)
    ((s.sweep v.name).runConfigured (Runner.processes host) tree ()).verdict
  plot : v.plot = s.plot host v.exit.tree v.name

/-- Visits one after the other, from a tree to a tree. -/
inductive Visits (host : Host) (colors : Bool) (s : Suite) (bench : String → List String) :
    Tree → List Visit → Tree → Prop
  | nil {tree} : Visits host colors s bench tree [] tree
  | cons {v rest tree last} (h : v.From host colors s bench tree)
      (hrest : Visits host colors s bench v.plot.tree rest last) :
      Visits host colors s bench tree (v :: rest) last

/-- What is printed on the standard output for a visit. -/
def Visit.stdout (v : Visit) : List UInt8 :=
  utf8 ("benchmark name = " ++ v.name ++ "\n") ++ v.shown ++ v.plot.written .out ++
    utf8 (Text.decimalText v.plot.status ++ "\n")

/-- What is printed on the standard error for a visit. -/
def Visit.stderr (v : Visit) : List UInt8 := v.exit.output.stderr ++ v.plot.written .err

section

variable {host : Host} {r : Request} {settings : Settings} {bench : String → List String}

/-- For one benchmark the suite does what `runbench` and the plotter do. -/
theorem exists_visit (colors : Bool) (name : String) (span : Span) (tree : Tree)
    (hload : r.loadSettings host tree = .ok settings)
    (hbench : BenchRequests (bench name) (r.bench name)) :
    let s := r.suite settings
    let ran := s.runOne host (Runner.processes host) tree () name
    let outputs := ran.2.1.map (noticeOutput colors s)
    ∃ v : Visit, v.name = name ∧ v.span = span ∧ v.From host colors s bench tree ∧
      v.plot.tree = ran.2.2.1 ∧ v.exit.code = min ran.1.sweepStatus 255 ∧
      v.plot.status = ran.1.plotStatus ∧ outputs.flatMap Output.stdout = v.stdout ∧
      outputs.flatMap Output.stderr = v.stderr := by
  dsimp only
  obtain ⟨m, hscan, hmatch⟩ := hbench
  obtain ⟨htree, hcode, hout, herr⟩ := perform_bench colors span name hload
  obtain ⟨hstdout, hstderr⟩ := output_runOne colors (r.suite settings) host tree name
  have hrun : RunBench.run host colors span (bench name) tree =
      .done (RunBench.perform host colors span (r.bench name) tree) := by
    rw [RunBench.run, hscan, ← hmatch]
  -- the plotter finds the tree that `runbench` has left
  generalize RunBench.perform host colors span (r.bench name) tree = exit
    at hrun htree hcode hout herr
  generalize (RunBench.progressOutput colors .out _ _).stdout = shown at hout hstdout
  rw [← htree] at hstdout hstderr
  have hplot : (r.suite settings).plot host exit.tree name =
      (r.suite settings).plot host
        (((r.suite settings).sweep name).runConfigured (Runner.processes host) tree ()).tree
          name := by
    rw [htree]
  refine ⟨⟨name, span, exit, shown, (r.suite settings).plot host exit.tree name⟩, rfl, rfl,
    ⟨hrun, hout, rfl⟩, congrArg Suite.Plot.tree hplot, hcode, congrArg Suite.Plot.status hplot,
    hstdout, ?_⟩
  rw [hstderr, Visit.stderr, herr]

/-- Benchmark by benchmark, the suite does what `runbench` and the plotter do. -/
theorem exists_visits (colors : Bool) (names : List String) (clock : List Span)
    (hclock : clock.length = names.length) (tree : Tree)
    (hload : ∀ front, front <+: names →
      r.loadSettings host ((r.suite settings).runAll host (Runner.processes host) tree ()
        front).tree = .ok settings)
    (hbench : ∀ name ∈ names, BenchRequests (bench name) (r.bench name)) :
    let s := r.suite settings
    let ran := s.runAll host (Runner.processes host) tree () names
    let outputs := ran.notices.map (noticeOutput colors s)
    ∃ visits : List Visit, visits.map Visit.name = names ∧ visits.map Visit.span = clock ∧
      Visits host colors s bench tree visits ran.tree ∧
      min 255 (Suite.sum ran.rows) =
        min 255 (visits.map fun v => v.exit.code + v.plot.status).sum ∧
      outputs.flatMap Output.stdout = visits.flatMap Visit.stdout ∧
      outputs.flatMap Output.stderr = visits.flatMap Visit.stderr := by
  induction names generalizing clock tree with
  | nil =>
      obtain rfl := List.length_eq_zero_iff.1 hclock
      exact ⟨[], rfl, rfl, .nil, rfl, rfl, rfl⟩
  | cons name names ih =>
      obtain ⟨span, clock, rfl⟩ := List.exists_cons_of_length_eq_add_one hclock
      have hloaded : r.loadSettings host tree = .ok settings := hload [] List.nil_prefix
      obtain ⟨v, hname, hspan, hfrom, htree, hcode, hstatus, hstdout, hstderr⟩ :=
        exists_visit colors name span tree hloaded (hbench name List.mem_cons_self)
      -- the settings and arguments of the other benchmarks, from the tree that is left
      have hload' : ∀ front, front <+: names →
          r.loadSettings host ((r.suite settings).runAll host (Runner.processes host)
            ((r.suite settings).runOne host (Runner.processes host) tree () name).2.2.1 ()
              front).tree = .ok settings := by
        intro front hfront
        exact hload (name :: front) (List.cons_prefix_cons.2 ⟨rfl, hfront⟩)
      have hbench' : ∀ name ∈ names, BenchRequests (bench name) (r.bench name) := by
        intro name hmem
        exact hbench name (List.mem_cons_of_mem _ hmem)
      obtain ⟨visits, hnames, hspans, hvisits, hsum, hrestout, hresterr⟩ :=
        ih clock (Nat.succ.inj hclock) _ hload' hbench'
      refine ⟨v :: visits, ?_, ?_, .cons hfrom ?_, ?_, ?_, ?_⟩
      · rw [List.map_cons, hname, hnames]
      · rw [List.map_cons, hspan, hspans]
      · rw [htree]
        exact hvisits
      · -- the caps of `runbench` and of `runall` do not matter to a sum that is capped again
        have hstate : ((r.suite settings).runOne host (Runner.processes host) tree () name).2.2.2 =
            () := rfl
        rw [Suite.sum_runAll, hstate, List.map_cons, List.sum_cons, hcode, hstatus]
        omega
      · rw [Suite.runAll, List.map_append, List.flatMap_append, hstdout, hrestout]
        exact List.flatMap_cons.symm
      · rw [Suite.runAll, List.map_append, List.flatMap_append, hstderr, hresterr]
        exact List.flatMap_cons.symm

/-- The plotters of visits. -/
theorem Visits.plot_eq {colors : Bool} {s : Suite} {tree last : Tree} {visits : List Visit}
    (h : Visits host colors s bench tree visits last) {v : Visit} (hv : v ∈ visits) :
    v.plot = s.plot host v.exit.tree v.name := by
  induction h with
  | nil => cases hv
  | cons h _ ih =>
      rcases List.mem_cons.1 hv with rfl | hv
      · exact h.plot
      · exact ih hv

end

/-- `runall` does what `runbench` and the plotter do one after the other, if each benchmark is
given to `runbench` with the root, the iterations and the settings of `runall`, and if these
settings are the same whenever they are read: both leave the same tree; `runall` exits with the
sum of the exit codes and the statuses of the plotters, up to 255; it prints what `runbench`
prints but for the summary, with the name of the benchmark in front of it and the status of the
plotter behind it; and what the plotter prints itself, byte for byte, comes in between.  The
plotters are awaited to their ends. -/
theorem run_visits (host : Host) (colors : Bool) (args : List String) (r : Request) (tree : Tree)
    (settings : Settings) (bench : String → List String) (clock : List Span)
    (hargs : Requests args r)
    (hload : ∀ front, front <+: (r.suite settings).benchmarks →
      r.loadSettings host ((r.suite settings).runAll host (Runner.processes host) tree ()
        front).tree = .ok settings)
    (hbench : ∀ name ∈ (r.suite settings).benchmarks, BenchRequests (bench name) (r.bench name))
    (hclock : clock.length = (r.suite settings).benchmarks.length) :
    ∃ (exit : Exit) (visits : List Visit),
      run host colors args tree = .done exit ∧
      visits.map Visit.name = (r.suite settings).benchmarks ∧ visits.map Visit.span = clock ∧
      Visits host colors (r.suite settings) bench tree visits exit.tree ∧
      exit.code = min 255 (visits.map fun v => v.exit.code + v.plot.status).sum ∧
      exit.output.stdout = (visits.flatMap fun v =>
        utf8 ("benchmark name = " ++ v.name ++ "\n") ++ v.shown ++ v.plot.written .out ++
          utf8 (Text.decimalText v.plot.status ++ "\n")) ∧
      exit.output.stderr =
        (visits.flatMap fun v => v.exit.output.stderr ++ v.plot.written .err) ∧
      ∀ v ∈ visits, Suite.PlotStatus
        (host.start v.exit.tree (r.suite settings).plotterPath
          [((r.suite settings).directory v.name).text, v.name]) v.plot.status := by
  obtain ⟨m, hscan, rfl⟩ := hargs
  obtain ⟨visits, hnames, hspans, hvisits, hsum, hout, herr⟩ :=
    exists_visits colors _ clock hclock tree hload hbench
  have hloaded : (Request.ofMatches m).loadSettings host tree = .ok settings :=
    hload [] List.nil_prefix
  refine ⟨perform host colors (.ofMatches m) tree, visits, ?_, hnames, hspans, ?_⟩
  · rw [run, hscan]
  rw [perform, hloaded]
  refine ⟨hvisits, ?_, ?_, ?_, fun v hv => ?_⟩
  · show exitCode (Suite.total _) = _
    rw [exitCode, highestCode, Suite.total_eq, ← hsum]
    -- the highest exit code is far below the cap of the sum
    have hcap : 255 ≤ countCap := by decide
    rw [Suite.run]
    omega
  · exact (Output.stdout_concat _).trans hout
  · exact (Output.stderr_concat _).trans herr
  · rw [hvisits.plot_eq hv]
    exact Suite.plotStatus_plot _ _ _ _

/-! ## A plotter that prints -/

/-- A plotter that prints and then fails. -/
def plotter : Program := [.say .out "plotting\n", .exit 200]

/-- A tree with nothing but this plotter. -/
def plotterTree : Tree :=
  Tree.bare.set ["alt", "bench", "tmp"] (.file 0 0o755 (.program plotter))

/-- A suite of one benchmark, which is not there, and this plotter. -/
def plotterRequest : Request := ⟨⟨"r"⟩, 1, ["a"], none, some ⟨"./alt"⟩⟩

theorem requests_plotter :
    Requests ["r", "--plotter", "./alt", "--benchmark", "a"] plotterRequest :=
  ⟨⟨["r"], [("plotter", "./alt"), ("benchmark", "a")]⟩, by decide +kernel, by decide +kernel⟩

theorem benchRequests_plotter : BenchRequests ["r/a", "a", "1"] (plotterRequest.bench "a") :=
  ⟨⟨["r/a", "a", "1"], []⟩, by decide +kernel, by decide +kernel⟩

theorem plot_plotterTree :
    (plotterRequest.suite .standard).plot Machine.plain.host plotterTree "a" =
      ⟨200, [(.out, utf8 "plotting\n")], plotterTree⟩ := by
  have hcontent : plotterTree.runnable? ⟨"./alt"⟩ = .ok (.program plotter) := by decide +kernel
  have hnul : (Path.holdsNul "./alt" || ["r/a", "a"].any Path.holdsNul) = false := by decide
  have hstart : Machine.plain.host.start plotterTree ⟨"./alt"⟩ ["r/a", "a"] =
      .ok (Launch.run ⟨plotter, ["r/a", "a"]⟩) :=
    Machine.start_program hcontent (by decide) hnul (by decide) (by decide)
  have hargs : (plotterRequest.suite .standard).plotterArgs "a" = ["r/a", "a"] := by
    decide +kernel
  have hplotter : (plotterRequest.suite .standard).plotterPath = ⟨"./alt"⟩ := rfl
  rw [Suite.plot, hargs, hplotter, hstart]
  rfl

/-- The sweep of a benchmark that is not there ends before any step. -/
theorem ran_plotterTree :
    ((plotterRequest.suite .standard).sweep "a").runConfigured (Runner.processes Machine.plain.host)
      plotterTree () = ⟨.error (.configNotFound ⟨"r/a/config"⟩), [], plotterTree, ()⟩ := rfl

/-- What `runall` answers in this tree. -/
theorem run_plotterTree :
    run Machine.plain.host false ["r", "--plotter", "./alt", "--benchmark", "a"] plotterTree = .done
      ⟨201, ⟨utf8 "benchmark name = a\n=== dir = r/a\n=== iters = 1\nplotting\n200\n",
        utf8 "Error: configuration file r/a/config does not exist!\n"⟩, plotterTree⟩ := by
  obtain ⟨m, hscan, hmatch⟩ := requests_plotter
  have hbenchmarks : (plotterRequest.suite .standard).benchmarks = ["a"] := rfl
  have hload : plotterRequest.loadSettings Machine.plain.host plotterTree = .ok .standard := rfl
  rw [run, hscan]
  dsimp only
  rw [hmatch, perform, hload]
  dsimp only
  rw [Suite.run, hbenchmarks]
  simp only [Suite.runAll, Suite.runOne, ran_plotterTree, plot_plotterTree]
  rfl

/-- The arguments of `runbench` for a benchmark of this suite. -/
def plotterBench (name : String) : List String := ["r/" ++ name, name, "1"]

/-- A span without length. -/
def noTime : Span := ⟨⟨0, 0⟩, ⟨0, 0⟩⟩

/-- What `runbench` answers in this tree. -/
theorem runbench_plotterTree :
    RunBench.run Machine.plain.host false noTime (plotterBench "a") plotterTree = .done
      ⟨1, ⟨utf8 "=== dir = r/a\n=== iters = 1\n",
        utf8 "Error: configuration file r/a/config does not exist!\n"⟩, plotterTree⟩ := by
  obtain ⟨m, hscan, hmatch⟩ := benchRequests_plotter
  have hsweep : (plotterRequest.bench "a").sweep .standard =
      (plotterRequest.suite .standard).sweep "a" := rfl
  have hload : (plotterRequest.bench "a").loadSettings Machine.plain.host plotterTree =
      .ok .standard := rfl
  have hargs : plotterBench "a" = ["r/a", "a", "1"] := by decide +kernel
  rw [RunBench.run, hargs, hscan]
  dsimp only
  rw [hmatch, RunBench.perform, hload]
  dsimp only
  rw [hsweep, ran_plotterTree]
  rfl

/-- What the plotter prints itself stands on the standard output of `runall`. -/
theorem plotter_speaks :
    ∃ (exit : Exit) (v : Visit),
      Requests ["r", "--plotter", "./alt", "--benchmark", "a"] plotterRequest ∧
      BenchRequests (plotterBench "a") (plotterRequest.bench "a") ∧
      run Machine.plain.host false ["r", "--plotter", "./alt", "--benchmark", "a"] plotterTree =
        .done exit ∧
      v.name = "a" ∧
      Visits Machine.plain.host false (plotterRequest.suite .standard) plotterBench plotterTree [v]
        exit.tree ∧
      exit.output.stdout ≠ utf8 ("benchmark name = " ++ v.name ++ "\n") ++ v.shown ++
        utf8 (Text.decimalText v.plot.status ++ "\n") := by
  refine ⟨_, ⟨"a", noTime, _, utf8 "=== dir = r/a\n=== iters = 1\n", _⟩, requests_plotter,
    benchRequests_plotter, run_plotterTree, rfl,
    .cons ⟨runbench_plotterTree, ?_, plot_plotterTree.symm⟩ .nil, ?_⟩
  · rw [ran_plotterTree]
    exact (List.append_nil _).symm
  · decide +kernel

/-- What the plotter prints itself comes in between. -/
theorem run_visits_plotted :
    ∃ (exit : Exit) (visits : List Visit),
      run Machine.plain.host false ["r", "--plotter", "./alt", "--benchmark", "a"] plotterTree =
        .done exit ∧
      visits.map Visit.name = (plotterRequest.suite .standard).benchmarks ∧
      visits.map Visit.span = [noTime] ∧
      Visits Machine.plain.host false (plotterRequest.suite .standard) plotterBench plotterTree
        visits exit.tree ∧
      exit.code = min 255 (visits.map fun v => v.exit.code + v.plot.status).sum ∧
      exit.output.stdout = (visits.flatMap fun v =>
        utf8 ("benchmark name = " ++ v.name ++ "\n") ++ v.shown ++ v.plot.written .out ++
          utf8 (Text.decimalText v.plot.status ++ "\n")) ∧
      exit.output.stderr =
        (visits.flatMap fun v => v.exit.output.stderr ++ v.plot.written .err) ∧
      ∀ v ∈ visits, Suite.PlotStatus
        (Machine.plain.host.start v.exit.tree (plotterRequest.suite .standard).plotterPath
          [((plotterRequest.suite .standard).directory v.name).text, v.name]) v.plot.status := by
  refine run_visits Machine.plain.host false _ plotterRequest plotterTree .standard plotterBench
    [noTime] requests_plotter (fun _ _ => rfl) ?_ rfl
  intro name hname
  obtain rfl : name = "a" := List.mem_singleton.1 hname
  exact benchRequests_plotter

end RunAll

end CommandLine

end BenchSweep
