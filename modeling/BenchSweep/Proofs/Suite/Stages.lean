import Mathlib.Algebra.GroupWithZero.Nat
import BenchSweep.Proofs.Runner.Endings
import BenchSweep.Proofs.Sweep.Calls
import BenchSweep.Suite

/-!
# A suite, stage by stage

Every benchmark of a suite is swept and plotted, whatever came of those before it.

* `Suite.PlotStatus` : the status of a plotter.
* `Suite.Stage`, `Suite.Stages` : the sweep and the plot of one benchmark, and those of several in
  a row, each from the tree and the state that the one before it left.
* `Suite.total_eq` : the total of a suite is a sum, up to a cap.
* `Suite.run_stages` : a suite is such a row of stages, of which it tells, and which it counts.
-/

namespace BenchSweep

variable {σ τ : Type}

/-! ## Sweeps that are watched -/

namespace Sweep

/-- What is seen of the calls of a sweep by the recipe in the benchmark's directory. -/
def callsConfigured (s : Sweep) (runner : Runner σ) (tree : Tree) (state : σ) :
    List Observation :=
  (s.runConfigured runner.observed tree (state, [])).state.2

theorem runConfigured_mapState {inner : Runner σ} {outer : Runner τ} {f : τ → σ}
    (hf : inner.Simulates f outer) (s : Sweep) (tree : Tree) (state : τ) :
    s.runConfigured inner tree (f state) = (s.runConfigured outer tree state).mapState f := by
  cases hload : Recipe.load tree s.directory with
  | error failure =>
      rw [runConfigured_of_load_error hload, runConfigured_of_load_error hload]
      rfl
  | ok recipe =>
      rw [runConfigured_of_load_ok hload, runConfigured_of_load_ok hload]
      exact run_mapState hf s recipe tree state

/-- What was seen before stays in front of what is seen of a sweep. -/
theorem runConfigured_observed (s : Sweep) (runner : Runner σ) (tree : Tree) (state : σ)
    (seen : List Observation) :
    s.runConfigured runner.observed tree (state, seen) =
      let swept := s.runConfigured runner tree state
      ⟨swept.verdict, swept.progress, swept.tree,
        (swept.state, seen ++ s.callsConfigured runner tree state)⟩ := by
  have hfront : runner.observed.Simulates (fun state => (state.1, seen ++ state.2))
      runner.observed := by
    intro trial timeout log t state
    simp [Runner.observed, Attempt.mapState]
  have hseen := s.runConfigured_mapState hfront tree (state, [])
  have hplain := s.runConfigured_mapState runner.simulates_observed tree (state, [])
  rw [List.append_nil] at hseen
  rw [hseen, hplain]
  rfl

end Sweep

namespace Suite

/-! ## Plotters -/

/-- The status of a plotter by what came of starting it: its exit code, or 1 if it could not be
started or was killed by a signal. -/
def PlotStatus (started : Except Fault Run) (status : Nat) : Prop :=
  match started with
  | .error _ => status = 1
  | .ok run =>
    match run.ending with
    | .exited code => status = code.toNat
    | .killed _ _ => status = 1

/-- The status of an ending is its code, or 1. -/
theorem plotStatus_status (ending : Ending) :
    plotStatus ending.status =
      match ending with
      | .exited code => code.toNat
      | .killed _ _ => 1 := by
  cases ending with
  | exited code =>
      have hexited : (WaitStatus.exited code.toNat).hasExited = true :=
        beq_iff_eq.2 (WaitStatus.lowBits_exited code.toNat)
      rw [Ending.status, plotStatus, if_pos hexited, WaitStatus.code_exited,
        Nat.mod_eq_of_lt code.toNat_lt]
  | killed signal coreDumped =>
      have hlow : (WaitStatus.killed signal.number coreDumped).lowBits ≠ 0 := by
        have hpos := signal.pos
        have hle := signal.le
        rw [WaitStatus.lowBits_killed]
        omega
      exact if_neg fun hexited => hlow (beq_iff_eq.1 hexited)

theorem plotStatus_plot (s : Suite) (host : Host) (tree : Tree) (name : String) :
    PlotStatus (host.start tree s.plotterPath (s.plotterArgs name))
      (s.plot host tree name).status := by
  dsimp only [plot, PlotStatus]
  cases host.start tree s.plotterPath (s.plotterArgs name) with
  | error fault => rfl
  | ok run =>
      dsimp only
      rw [plotStatus_status]
      cases run.ending <;> rfl

/-- What a plotter wrote to a stream. -/
def Plot.written (p : Plot) (stream : Stream) : List UInt8 :=
  p.printed.flatMap fun (target, data) => if target = stream then data else []

/-- The failures and plotter statuses of all benchmarks together, without a cap. -/
def sum (rows : List Row) : Nat := (rows.map fun row => row.sweepStatus + row.plotStatus).sum

theorem sum_runAll (s : Suite) (host : Host) (runner : Runner σ) (tree : Tree) (state : σ)
    (name : String) (names : List String) :
    let one := s.runOne host runner tree state name
    sum (s.runAll host runner tree state (name :: names)).rows =
      one.1.sweepStatus + one.1.plotStatus +
        sum (s.runAll host runner one.2.2.1 one.2.2.2 names).rows :=
  List.sum_cons

/-- Capping every addition caps the sum. -/
theorem total_eq (rows : List Row) : total rows = min countCap (sum rows) := by
  -- the sum so far is itself within the cap
  have hfoldl : ∀ n, n ≤ countCap →
      rows.foldl (fun n row => addCapped (addCapped n row.sweepStatus) row.plotStatus) n =
        min countCap (n + sum rows) := by
    induction rows with
    | nil =>
        intro n hn
        exact (Nat.min_eq_right hn).symm
    | cons row rows ih =>
        intro n hn
        have hle : addCapped (addCapped n row.sweepStatus) row.plotStatus ≤ countCap :=
          Nat.min_le_left _ _
        rw [List.foldl_cons, ih _ hle]
        simp only [addCapped, sum, List.map_cons, List.sum_cons]
        omega
  rw [total, hfoldl 0 (Nat.zero_le _), Nat.zero_add]

/-! ## Stages -/

/-- A benchmark of a suite as it was run: its sweep, what its runner was called for, and its
plot. -/
structure Stage (σ : Type) where
  benchmark : String
  swept : Sweep.Ran σ
  calls : List Observation
  plotted : Plot

/-- The row of a benchmark: the failures that its sweep counted, or 1 if it did not go through,
however many trials had failed by then. -/
def Stage.row (stage : Stage σ) : Row where
  benchmark := stage.benchmark
  sweepStatus :=
    match stage.swept.verdict with
    | .ok tally => tally.failures
    | .error _ => 1
  plotStatus := stage.plotted.status

/-- What is told of a benchmark: its name, all that its sweep tells, the failure of a sweep that
did not go through, and the status of its plot. -/
def Stage.told (stage : Stage σ) : List Notice :=
  .benchmark stage.benchmark :: stage.swept.progress.map .progress ++
    (match stage.swept.verdict with
      | .ok _ => []
      | .error failure => [.sweepFailed stage.benchmark failure]) ++
    [.plotted stage.benchmark stage.plotted.status stage.plotted.printed]

/-- Is the stage what running a benchmark alone does, from a tree and a state on?  It is plotted
whatever came of the sweep. -/
structure Stage.Runs (s : Suite) (host : Host) (runner : Runner σ) (tree : Tree) (state : σ)
    (stage : Stage σ) : Prop where
  swept : stage.swept = (s.sweep stage.benchmark).runConfigured runner tree state
  calls : stage.calls = (s.sweep stage.benchmark).callsConfigured runner tree state
  plotted : stage.plotted = s.plot host stage.swept.tree stage.benchmark

/-- Stages in a row, from a tree and a state to the last ones. -/
inductive Stages (s : Suite) (host : Host) (runner : Runner σ) :
    Tree → σ → List (Stage σ) → Tree → σ → Prop
  | nil {tree : Tree} {state : σ} : Stages s host runner tree state [] tree state
  | cons {tree last : Tree} {state left : σ} {stage : Stage σ} {rest : List (Stage σ)}
      (h : stage.Runs s host runner tree state)
      (hrest : Stages s host runner stage.plotted.tree stage.swept.state rest last left) :
      Stages s host runner tree state (stage :: rest) last left

/-- Every benchmark is plotted. -/
theorem Stages.plotted {s : Suite} {host : Host} {runner : Runner σ} {tree last : Tree}
    {state left : σ} {stages : List (Stage σ)} {stage : Stage σ}
    (h : Stages s host runner tree state stages last left) (hmem : stage ∈ stages) :
    stage.plotted = s.plot host stage.swept.tree stage.benchmark := by
  induction h with
  | nil => cases hmem
  | cons h _ ih =>
      rcases List.mem_cons.1 hmem with rfl | hmem
      · exact h.plotted
      · exact ih hmem

/-- Benchmarks are run stage by stage, and what is seen of their calls is what is seen of the
stages. -/
theorem exists_stages (s : Suite) (host : Host) (runner : Runner σ) (tree : Tree) (state : σ)
    (names : List String) :
    let ran := s.runAll host runner tree state names
    ∃ stages : List (Stage σ), Stages s host runner tree state stages ran.tree ran.state ∧
      stages.map Stage.benchmark = names ∧ ran.rows = stages.map Stage.row ∧
      ran.notices = stages.flatMap Stage.told ∧
      ∀ seen, s.runAll host runner.observed tree (state, seen) names =
        ⟨ran.rows, ran.notices, ran.tree, (ran.state, seen ++ stages.flatMap Stage.calls)⟩ := by
  induction names generalizing tree state with
  | nil => exact ⟨[], .nil, rfl, rfl, rfl, fun seen => by simp [runAll]⟩
  | cons name names ih =>
      let swept := (s.sweep name).runConfigured runner tree state
      let plotted := s.plot host swept.tree name
      obtain ⟨stages, hstages, hnames, hrows, hnotices, hseen⟩ := ih plotted.tree swept.state
      refine ⟨⟨name, swept, (s.sweep name).callsConfigured runner tree state, plotted⟩ :: stages,
        .cons ⟨rfl, rfl, rfl⟩ hstages, ?_, ?_, ?_, fun seen => ?_⟩
      · exact congrArg (name :: ·) hnames
      · exact congrArg (_ :: ·) hrows
      · exact congrArg (_ ++ ·) hnotices
      · -- what is seen of this benchmark goes in front of what is seen of the others
        rw [runAll, runOne, Sweep.runConfigured_observed]
        dsimp only
        rw [hseen, List.flatMap_cons, List.append_assoc]
        rfl

/-- A suite visits all its benchmarks once and in order, whatever fails.  Each is swept from the
tree and the state of the runner that the one before it left, and then plotted; it has a row, and
a block of what is told; and watching the runner changes nothing and shows the calls of all sweeps
in a row.  The total of the suite is the sum of all rows, up to the largest number of 32 bits.  As
every run does, a plotter that is started comes to an end. -/
theorem run_stages (s : Suite) (host : Host) (runner : Runner σ) (tree : Tree) (state : σ) :
    let ran := s.run host runner tree state
    ∃ stages : List (Stage σ), Stages s host runner tree state stages ran.tree ran.state ∧
      stages.map Stage.benchmark = s.benchmarks ∧ ran.rows = stages.map Stage.row ∧
      ran.notices = stages.flatMap Stage.told ∧
      s.run host runner.observed tree (state, []) =
        ⟨ran.rows, ran.notices, ran.tree, (ran.state, stages.flatMap Stage.calls)⟩ ∧
      total ran.rows = min (2 ^ 32 - 1)
        (stages.map fun stage => stage.row.sweepStatus + stage.row.plotStatus).sum ∧
      ∀ stage ∈ stages, PlotStatus
        (host.start stage.swept.tree s.plotterPath
          [(s.directory stage.benchmark).text, stage.benchmark]) stage.row.plotStatus := by
  obtain ⟨stages, hstages, hnames, hrows, hnotices, hseen⟩ :=
    s.exists_stages host runner tree state s.benchmarks
  refine ⟨stages, hstages, hnames, hrows, hnotices, hseen [], ?_, fun stage hmem => ?_⟩
  · rw [total_eq, run, hrows, sum, List.map_map]
    rfl
  · rw [Stage.row, hstages.plotted hmem]
    exact s.plotStatus_plot host stage.swept.tree stage.benchmark

end Suite

end BenchSweep
