import BenchSweep.Machine
import BenchSweep.Proofs.Files.Alike
import BenchSweep.Suite

/-!
# Plotters that change nothing

A plotter that only exits, and perhaps prints, does so whatever has been filed before it.

* `Run.OnlyPrints` : a run that does nothing to any file.
* `Suite.PlotsAlike`, `Suite.Unmoved` : a plotter that is missing, or only exits, whatever is in an
  area; `Suite.Unmoved.plot` says what plotting does.
* `Program.Quiet` : a program that leaves all files alone.
* `Machine.unmoved_of_absent`, `Machine.unmoved_of_quiet` : plotters of a machine that are missing,
  or are such programs outside of the area.
-/

namespace BenchSweep

/-! ## Plotting -/

/-- Does the run do nothing but print? -/
def Run.OnlyPrints (run : Run) : Prop := ∀ effect ∈ run.effects, effect.printed?.isSome

/-- A run that only prints changes no file. -/
theorem Run.OnlyPrints.foldl_changed {run : Run} (h : run.OnlyPrints) (t : Tree) :
    run.effects.foldl Effect.changed t = t := by
  unfold OnlyPrints at h
  generalize run.effects = effects at h
  induction effects with
  | nil => rfl
  | cons effect rest ih =>
      obtain ⟨heffect, hrest⟩ := List.forall_mem_cons.1 h
      cases effect with
      | print => exact ih hrest
      | change => cases heffect

namespace Suite

variable {s : Suite} {host : Host} {tree u : Tree} {area : Location → Prop} {name : String}

/-- Plotting a benchmark comes to the same whatever is in an area: the plotter cannot be started, or
it only prints and ends in one way. -/
inductive PlotsAlike (s : Suite) (host : Host) (area : Location → Prop) (tree : Tree)
    (name : String) : Prop
  | absent (h : ∀ u, tree.Within area u → ∃ fault,
      host.start u s.plotterPath (s.plotterArgs name) = .error fault)
  | ends (ending : Ending) (h : ∀ u, tree.Within area u → ∃ run,
      host.start u s.plotterPath (s.plotterArgs name) = .ok run ∧ run.ending = ending ∧
        run.OnlyPrints)

/-- The plotter of a suite takes no part in it, whatever is in the area. -/
def Unmoved (s : Suite) (host : Host) (area : Location → Prop) (tree : Tree) : Prop :=
  ∀ name ∈ s.benchmarks, s.PlotsAlike host area tree name

theorem plot_of_error {fault : Fault}
    (h : host.start tree s.plotterPath (s.plotterArgs name) = .error fault) :
    s.plot host tree name = ⟨1, [], tree⟩ := by
  rw [plot, h]

/-- A plotter that only prints changes no file, and its ending has a status. -/
theorem plot_of_onlyPrints {run : Run}
    (h : host.start tree s.plotterPath (s.plotterArgs name) = .ok run) (hprints : run.OnlyPrints) :
    (s.plot host tree name).status = plotStatus run.ending.status ∧
      (s.plot host tree name).tree = tree := by
  rw [plot, h]
  exact ⟨rfl, hprints.foldl_changed tree⟩

/-- Plotting has the same status when the area has changed, and changes no file itself. -/
theorem PlotsAlike.plot (h : s.PlotsAlike host area tree name) (hu : tree.Within area u) :
    (s.plot host u name).status = (s.plot host tree name).status ∧
      (s.plot host u name).tree = u := by
  cases h with
  | absent h =>
      obtain ⟨fault, hfault⟩ := h tree (.refl area tree)
      obtain ⟨fault', hfault'⟩ := h u hu
      rw [plot_of_error hfault, plot_of_error hfault']
      exact ⟨rfl, rfl⟩
  | ends ending h =>
      obtain ⟨run, hrun, hending, hprints⟩ := h tree (.refl area tree)
      obtain ⟨run', hrun', hending', hprints'⟩ := h u hu
      obtain ⟨hstatus, -⟩ := plot_of_onlyPrints hrun hprints
      obtain ⟨hstatus', htree'⟩ := plot_of_onlyPrints hrun' hprints'
      exact ⟨by rw [hstatus, hstatus', hending, hending'], htree'⟩

end Suite

/-! ## Quiet programs -/

/-- Does the program leave all files alone? -/
def Program.Quiet (p : Program) : Prop := ∀ file, .appendArguments file ∉ p

/-- A quiet program does nothing but print. -/
theorem Program.Quiet.onlyPrints {l : Launch} (h : l.program.Quiet) : l.run.OnlyPrints := by
  have hacts (args : List String) (p : Program) (hp : p.Quiet) (delay : Nat) :
      ∀ act ∈ (p.trace args delay).1, act.effect.printed?.isSome := by
    induction p generalizing delay with
    | nil => exact List.forall_mem_nil _
    | cons step rest ih =>
        have ih := ih fun file hmem => hp file (List.mem_cons_of_mem _ hmem)
        cases step with
        | print => exact List.forall_mem_cons.2 ⟨rfl, ih 0⟩
        | printArguments => exact List.forall_mem_cons.2 ⟨rfl, ih 0⟩
        | appendArguments file => exact absurd List.mem_cons_self (hp file)
        | pause => exact ih _
        | exit => exact List.forall_mem_nil _
        | raise signal =>
            rw [trace]
            cases Signal.ofNumber? signal with
            | some => exact List.forall_mem_nil _
            | none => exact ih _
  exact List.forall_mem_map.2 (hacts l.args l.program h startTime)

namespace Shell

/-- The shell complains without touching a file. -/
theorem quiet_giveUp (o : Options) (complaint : String) : (o.giveUp complaint).program.Quiet := by
  simp [Program.Quiet, Options.giveUp, Program.Step.say]

theorem quiet_of_readOptions {o : Options} {on : Bool} {letters : List Char} {words : List String}
    {refused : Launch} (h : readOptions o on letters words = .error refused) :
    refused.program.Quiet := by
  fun_induction readOptions o on letters words <;> grind [quiet_giveUp]

/-- The shell itself touches no file. -/
theorem quiet_launch {path : String} {script : Options → Program} (args : List String)
    (h : ∀ o, (script o).Quiet) : (launch path script args).program.Quiet := by
  rw [launch]
  split
  · next hread => exact quiet_of_readOptions hread
  · split
    · exact h _
    · exact quiet_giveUp _ _
  · simp [Program.Quiet]

end Shell

/-! ## Plotters of a machine -/

namespace Tree

variable {t u : Tree} {area : Location → Prop} {p : Path} {loc : Location} {m : Machine}

/-- What may be run outside of an area may still be run when the area has changed. -/
theorem Within.runnable? {stamp mode : Nat} {content : Content} (hu : Within area t u)
    (hlocate : t.locate .use p = .ok (.found loc)) (houtside : ¬ area loc)
    (hnode : t.node? loc = some (.file stamp mode content)) :
    u.runnable? p = t.runnable? p ∧ ∀ found, t.runnable? p = .ok found → found = content := by
  have hlocate' : u.locate .use p = .ok (.found loc) := hu.larger.locate hlocate (by simp)
  constructor
  · simp only [Tree.runnable?, hlocate, hlocate', hu.node? loc houtside, hu.busy]
  intro found h
  simp only [Tree.runnable?, hlocate, hnode] at h
  split at h
  · cases h
  split at h
  · cases h
  · exact (Except.ok.inj h).symm

/-- What is not there cannot be run. -/
theorem runnable?_of_absent (hnul : Path.holdsNul p.text = false)
    (h : ¬ ∃ node, t.Resolves p node) : ∃ e, t.runnable? p = .error e := by
  have hstat : t.stat? p = none := by
    rw [← Option.not_isSome_iff_eq_none, Option.isSome_iff_exists]
    simpa only [stat?_eq_some_iff] using h
  rw [stat?, if_neg (by simp [hnul])] at hstat
  rw [runnable?]
  split
  · exact ⟨_, rfl⟩
  · exact ⟨_, rfl⟩
  · next loc hlocate =>
      have hnone : t.node? loc = none := by rwa [hlocate] at hstat
      rw [hnone]
      exact ⟨_, rfl⟩

/-- What a path with a slash in it starts. -/
theorem launch?_of_slash (hslash : p.text.toList.contains '/' = true) (args : List String) :
    t.launch? m p args =
      if Path.holdsNul p.text || args.any Path.holdsNul then .error .nulInArgument
      else (t.launchAt? m p args).mapError .system := by
  rw [Tree.launch?, if_pos hslash]

end Tree

namespace Machine

variable {m : Machine} {s : Suite} {t tree : Tree} {area : Location → Prop} {p : Path}

/-- What cannot be run is not started. -/
theorem start_of_not_runnable {e : Errno} (hslash : p.text.toList.contains '/' = true)
    (h : t.runnable? p = .error e) (args : List String) :
    ∃ fault, m.host.start t p args = .error fault := by
  show ∃ fault, (t.launch? m p args).map Launch.run = .error fault
  rw [Tree.launch?_of_slash hslash, Tree.launchAt?, h]
  split <;> exact ⟨_, rfl⟩

/-- A plotter that is not there, whatever is in the area. -/
theorem unmoved_of_absent (hslash : s.plotterPath.text.toList.contains '/' = true)
    (h : ∀ u, tree.Within area u → ¬ ∃ node, u.Resolves s.plotterPath node) :
    s.Unmoved m.host area tree := by
  intro name _
  refine .absent fun u hu => ?_
  by_cases hnul : Path.holdsNul s.plotterPath.text = true
  · refine ⟨.nulInArgument, ?_⟩
    show (u.launch? m s.plotterPath (s.plotterArgs name)).map Launch.run = _
    rw [Tree.launch?_of_slash hslash, if_pos (by simp [hnul])]
    rfl
  · obtain ⟨e, hrun⟩ := Tree.runnable?_of_absent (by simpa using hnul) (h u hu)
    exact start_of_not_runnable hslash hrun _

/-- What is started by a program, through the shell. -/
theorem start_of_runnable_program {script : Program}
    (hslash : p.text.toList.contains '/' = true) (h : t.runnable? p = .ok (.program script))
    (args : List String) :
    m.host.start t p args =
      if Path.holdsNul p.text || args.any Path.holdsNul then .error .nulInArgument
      else .ok (Shell.launch p.text (fun _ => script) (p.text :: args)).run := by
  have hlimit : interpreterLimit ≠ 0 := by decide
  show (t.launch? m p args).map Launch.run = _
  rw [Tree.launch?_of_slash hslash, Tree.launchAt?, h]
  dsimp only
  rw [Tree.launchContent?_program, Tree.launchShell?, if_neg hlimit]
  split <;> rfl

/-- A plotter that is a quiet program outside of the area. -/
theorem unmoved_of_quiet {loc : Location} {stamp mode : Nat} {script : Program}
    (hslash : s.plotterPath.text.toList.contains '/' = true)
    (hlocate : tree.locate .use s.plotterPath = .ok (.found loc)) (houtside : ¬ area loc)
    (hnode : tree.node? loc = some (.file stamp mode (.program script))) (hscript : script.Quiet) :
    s.Unmoved m.host area tree := by
  intro name _
  have hsame {u : Tree} (hu : tree.Within area u) :
      u.runnable? s.plotterPath = tree.runnable? s.plotterPath :=
    (hu.runnable? hlocate houtside hnode).1
  cases hfound : tree.runnable? s.plotterPath with
  | error e => exact .absent fun u hu => start_of_not_runnable hslash ((hsame hu).trans hfound) _
  | ok content =>
      obtain rfl : content = .program script :=
        ((Tree.Within.refl area tree).runnable? hlocate houtside hnode).2 content hfound
      have hstart {u : Tree} (hu : tree.Within area u) :=
        start_of_runnable_program (m := m) hslash ((hsame hu).trans hfound) (s.plotterArgs name)
      by_cases hnul : (Path.holdsNul s.plotterPath.text ||
          (s.plotterArgs name).any Path.holdsNul) = true
      · exact .absent fun u hu => ⟨_, (hstart hu).trans (if_pos hnul)⟩
      · refine .ends _ fun u hu => ⟨_, (hstart hu).trans (if_neg hnul), rfl, ?_⟩
        exact Program.Quiet.onlyPrints (Shell.quiet_launch _ fun _ => hscript)

end Machine

end BenchSweep
