import BenchSweep.Proofs.Suite.Plotters
import BenchSweep.Proofs.Suite.Stages
import BenchSweep.Proofs.Sweep.Beside
import BenchSweep.Proofs.Sweep.Early

/-!
# The order of a suite

Benchmarks of a suite have nothing to do with one another if none of them is there twice, no
symbolic link leads from one to another, and the plotter takes no part in it.

* `Suite.Separate` : a suite whose benchmarks have directories of their own.
* `Suite.Behind` : the tree behind some benchmarks.  Each of them has left what it leaves alone, and
  nothing else has changed; so the next one is run as if it were alone (`Suite.Behind.runOne`).
* `Suite.run_permuted` : whatever the order of the benchmarks, their rows, the total and the tree
  that is left are the same.
* `Suite.plotter_by_results` : a plotter that is looked for by way of results takes part in it.
-/

namespace BenchSweep

namespace Suite

variable {σ : Type} {s : Suite} {tree t : Tree} {runner : Runner σ} {state : σ}
  {name name' : String} {names done : List String} {D loc : Location}
  {said : Trial → Timeout → Runner.Said}

/-- Is the location that of the results of a benchmark, or below it? -/
def InResults (s : Suite) (tree : Tree) (name : String) (loc : Location) : Prop :=
  ∃ D, tree.Reaches (s.directory name) D ∧ Sweep.InResults D loc

/-- Is the location that of the results of any benchmark, or below it? -/
def Results (s : Suite) (tree : Tree) (loc : Location) : Prop :=
  ∃ name ∈ s.benchmarks, s.InResults tree name loc

/-- Benchmarks and allocators are single components, no benchmark is there twice, and there are no
symbolic links below the root. -/
structure Separate (s : Suite) (tree : Tree) : Prop where
  distinct : s.benchmarks.Nodup
  benchmarks : ∀ name ∈ s.benchmarks, IsComponent name
  allocators : ∀ a ∈ s.settings.allocators, IsComponent a
  unlinked : ∀ R, tree.Reaches s.root R → ∀ loc, R <:+ loc → loc ≠ R → ¬ tree.IsLinkAt loc

theorem Separate.named (h : s.Separate tree) (hname : name ∈ s.benchmarks) : (s.sweep name).Named :=
  ⟨h.benchmarks name hname, h.allocators⟩

/-- The directory of a benchmark is in the root. -/
theorem Separate.exists_root (h : s.Separate tree) (hname : name ∈ s.benchmarks)
    (hD : tree.Reaches (s.directory name) D) : ∃ R, tree.Reaches s.root R ∧ D = name :: R := by
  have hcomponent := h.benchmarks name hname
  obtain ⟨R, hR⟩ := Tree.exists_reaches_of_join hcomponent (Tree.leads_of_walk hD.2)
  have hlink := h.unlinked R hR (name :: R) (List.suffix_cons name R) (by simp)
  exact ⟨R, hR, ((hR.join_iff hcomponent hlink).1 hD).1⟩

/-- The results of another benchmark are not below the directory of a benchmark. -/
theorem Separate.apart (h : s.Separate tree) (hname : name ∈ s.benchmarks)
    (hname' : name' ∈ s.benchmarks) (hD : tree.Reaches (s.directory name) D) (hloc : D <:+ loc)
    (hresults : s.InResults tree name' loc) : name = name' := by
  obtain ⟨D', hD', hloc'⟩ := hresults
  obtain ⟨R, hR, rfl⟩ := h.exists_root hname hD
  obtain ⟨R', hR', rfl⟩ := h.exists_root hname' hD'
  obtain rfl := hR.unique hR'
  have hloc' : name' :: R <:+ loc := (List.suffix_cons _ _).trans hloc'
  have hsuffix := List.suffix_of_suffix_length_le hloc hloc' (by simp)
  exact (List.cons.inj (hsuffix.eq_of_length (by simp))).1

/-- What is in the root itself is no result. -/
theorem Separate.not_results_child (h : s.Separate tree) {R : Location}
    (hR : tree.Reaches s.root R) : ¬ s.Results tree (name :: R) := by
  rintro ⟨other, hother, D, hD, hresults⟩
  obtain ⟨R', hR', rfl⟩ := h.exists_root hother hD
  obtain rfl := hR.unique hR'
  exact absurd hresults.length_le (by simp [Sweep.resultsAt])

/-- The standard plotter of a machine, if it is missing or a program that leaves all files alone. -/
theorem Separate.unmoved_of_standard (h : s.Separate tree) (m : Machine)
    (hplotter : s.plotter = none) (hslash : s.plotterPath.text.toList.contains '/' = true)
    {R : Location} (hR : tree.Reaches s.root R)
    (hnode : ∀ node, tree.node? (plotterName :: R) = some node → ∃ stamp mode script,
      node = .file stamp mode (.program script) ∧ script.Quiet) :
    s.Unmoved m.host (s.Results tree) tree := by
  have hpath : s.plotterPath = s.root.join plotterName := by rw [plotterPath, hplotter]; rfl
  have hname : IsComponent plotterName := by decide
  have houtside : ¬ s.Results tree (plotterName :: R) := h.not_results_child hR
  have hlink := h.unlinked R hR (plotterName :: R) (List.suffix_cons _ R) (by simp)
  by_cases hlong : pathLimit ≤ (s.root.join plotterName).text.utf8ByteSize
  · refine Machine.unmoved_of_absent hslash fun u _ => ?_
    rintro ⟨node, hresolves⟩
    rw [hpath] at hresolves
    exact absurd hresolves.short (Nat.not_lt.2 hlong)
  cases hat : tree.node? (plotterName :: R) with
  | none =>
      refine Machine.unmoved_of_absent hslash fun u hu => ?_
      rintro ⟨node, hresolves⟩
      have hsame := hu.node? _ houtside
      have hlink' : ¬ u.IsLinkAt (plotterName :: R) := by rwa [Tree.IsLinkAt, hsame]
      rw [hpath] at hresolves
      have hstat := Tree.stat?_eq_some_iff.2 hresolves
      have hfound := ((hR.mono hu.larger).stat?_join hname hlink' hstat).2
      rw [hsame, hat] at hfound
      cases hfound
  | some node =>
      obtain ⟨stamp, mode, script, rfl, hscript⟩ := hnode node hat
      refine Machine.unmoved_of_quiet hslash ?_ houtside hat hscript
      rw [hpath, hR.locate_join hname hlink, if_neg hlong, Tree.child, if_neg (by decide), hat]
      rfl

/-- The sweep of a benchmark alone. -/
def alone (s : Suite) (runner : Runner σ) (tree : Tree) (state : σ) (name : String) : Sweep.Ran σ :=
  (s.sweep name).runConfigured runner tree state

/-- The tree behind some benchmarks: each has left the results that it leaves alone, and nothing
else has changed. -/
structure Behind (s : Suite) (runner : Runner σ) (tree : Tree) (state : σ) (done : List String)
    (t : Tree) : Prop where
  within : tree.Within (fun loc => ∃ name ∈ done, s.InResults tree name loc) t
  results : ∀ name ∈ done, ∀ loc, s.InResults tree name loc →
    (t.node? loc).map Node.unstamped =
      ((s.alone runner tree state name).tree.node? loc).map Node.unstamped

/-- Below the directory of a benchmark that is still to come, nothing has changed. -/
theorem Behind.beside (h : s.Behind runner tree state done t) (hs : s.Separate tree)
    (hdone : ∀ name ∈ done, name ∈ s.benchmarks) (hname : name ∈ s.benchmarks) (hnew : name ∉ done)
    (hD : tree.Reaches (s.directory name) D) : Tree.Beside (s.directory name) D tree t where
  left := hD
  right := hD.mono h.within.larger
  unlinked loc hloc hne := by
    obtain ⟨R, hR, rfl⟩ := hs.exists_root hname hD
    refine hs.unlinked R hR loc ((List.suffix_cons name R).trans hloc) ?_
    rintro rfl
    exact absurd hloc.length_le (by simp)
  alike loc hloc := by
    rw [h.within.node? loc]
    rintro ⟨other, hother, hresults⟩
    obtain rfl := hs.apart hname (hdone other hother) hD hloc hresults
    exact hnew hother

/-- Nothing has changed in the root itself. -/
theorem Behind.node?_child (h : s.Behind runner tree state done t) (hs : s.Separate tree)
    (hdone : ∀ name ∈ done, name ∈ s.benchmarks) {R : Location} (hR : tree.Reaches s.root R) :
    t.node? (name :: R) = tree.node? (name :: R) := by
  apply h.within.node?
  rintro ⟨other, hother, hresults⟩
  exact hs.not_results_child hR ⟨other, hdone other hother, hresults⟩

/-- No directory of a benchmark appears. -/
theorem Behind.not_reaches (h : s.Behind runner tree state done t) (hs : s.Separate tree)
    (hdone : ∀ name ∈ done, name ∈ s.benchmarks) (hname : name ∈ s.benchmarks)
    (hnone : ¬ ∃ D, tree.Reaches (s.directory name) D) : ¬ ∃ D, t.Reaches (s.directory name) D := by
  rintro ⟨D, hD⟩
  have hcomponent := hs.benchmarks name hname
  by_cases hroot : ∃ R, tree.Reaches s.root R
  · obtain ⟨R, hR⟩ := hroot
    have hnode : t.node? (name :: R) = tree.node? (name :: R) := h.node?_child hs hdone hR
    have hlink := hs.unlinked R hR (name :: R) (List.suffix_cons name R) (by simp)
    have hlink' : ¬ t.IsLinkAt (name :: R) := by rwa [Tree.IsLinkAt, hnode]
    obtain ⟨-, hlength, hdir⟩ := ((hR.mono h.within.larger).join_iff hcomponent hlink').1 hD
    rw [Tree.isDirectoryAt, hnode] at hdir
    exact hnone ⟨_, (hR.join_iff hcomponent hlink).2 ⟨rfl, hlength, hdir⟩⟩
  · -- without a root there are no results, so the tree is as it was
    have hnode : ∀ loc, t.node? loc = tree.node? loc := by
      intro loc
      apply h.within.node?
      rintro ⟨other, hother, D', hD', -⟩
      obtain ⟨R, hR, -⟩ := hs.exists_root (hdone other hother) hD'
      exact hroot ⟨R, hR⟩
    have hback : Tree.Extends t tree :=
      ⟨h.within.larger.workingDirectory.symm, fun loc w hw => by rwa [← hnode loc]⟩
    exact hnone ⟨D, hD.mono hback⟩

/-- A benchmark is swept as if it were alone, and leaves what it leaves alone. -/
theorem Behind.sweep (h : s.Behind runner tree state done t) (hs : s.Separate tree)
    (hrunner : runner.ByTrial said) (hdone : ∀ name ∈ done, name ∈ s.benchmarks)
    (hname : name ∈ s.benchmarks) (hnew : name ∉ done) (state' : σ) :
    let swept := (s.sweep name).runConfigured runner t state'
    swept.verdict = (s.alone runner tree state name).verdict ∧
      s.Behind runner tree state (done ++ [name]) swept.tree := by
  have hmore : ∀ loc, (∃ other ∈ done, s.InResults tree other loc) →
      ∃ other ∈ done ++ [name], s.InResults tree other loc := by
    rintro loc ⟨other, hother, hresults⟩
    exact ⟨other, List.mem_append_left _ hother, hresults⟩
  by_cases hreaches : ∃ D, tree.Reaches (s.directory name) D
  · obtain ⟨D, hD⟩ := hreaches
    have hbeside := h.beside hs hdone hname hnew hD
    obtain ⟨hverdict, -, honward⟩ :=
      Sweep.runConfigured_beside (s := s.sweep name) (hs.named hname) hrunner hbeside state state'
    have hown : ∀ loc, Sweep.InResults D loc →
        ∃ other ∈ done ++ [name], s.InResults tree other loc := by
      intro loc hloc
      exact ⟨name, List.mem_append_right _ (List.mem_singleton_self name), D, hD, hloc⟩
    refine ⟨hverdict, (h.within.mono hmore).trans (honward.right.mono hown),
      fun other hother loc hresults => ?_⟩
    rcases List.mem_append.1 hother with hother | hother
    · -- the results of the others stay as they are
      rw [honward.right.node? loc, h.results other hother loc hresults]
      intro hloc
      have hbelow := (List.suffix_cons Archive.directoryName D).trans hloc
      obtain rfl := hs.apart hname (hdone other hother) hD hbelow hresults
      exact hnew hother
    · obtain rfl := List.mem_singleton.1 hother
      obtain ⟨D', hD', hloc⟩ := hresults
      obtain rfl := hD.unique hD'
      exact (honward.beside.alike loc ((List.suffix_cons _ _).trans hloc)).symm
  · -- without a directory there is nothing to do
    have hload := Recipe.load_of_no_directory hreaches
    have hload' := Recipe.load_of_no_directory (h.not_reaches hs hdone hname hreaches)
    rw [alone, Sweep.runConfigured_of_load_error (s := s.sweep name) hload,
      Sweep.runConfigured_of_load_error (s := s.sweep name) hload']
    refine ⟨rfl, h.within.mono hmore, fun other hother loc hresults => ?_⟩
    rcases List.mem_append.1 hother with hother | hother
    · exact h.results other hother loc hresults
    · obtain rfl := List.mem_singleton.1 hother
      obtain ⟨D, hD, -⟩ := hresults
      exact absurd ⟨D, hD⟩ hreaches

/-- The row of a benchmark that is alone. -/
def row (s : Suite) (host : Host) (runner : Runner σ) (tree : Tree) (state : σ) (name : String) :
    Row :=
  ⟨name, sweepStatus (s.alone runner tree state name).verdict, (s.plot host tree name).status⟩

/-- A benchmark is run as if it were alone. -/
theorem Behind.runOne (h : s.Behind runner tree state done t) (hs : s.Separate tree)
    (hplotter : s.Unmoved host (s.Results tree) tree) (hrunner : runner.ByTrial said)
    (hdone : ∀ name ∈ done, name ∈ s.benchmarks) (hname : name ∈ s.benchmarks) (hnew : name ∉ done)
    (state' : σ) :
    (s.runOne host runner t state' name).1 = s.row host runner tree state name ∧
      s.Behind runner tree state (done ++ [name]) (s.runOne host runner t state' name).2.2.1 := by
  obtain ⟨hverdict, hbehind⟩ := h.sweep hs hrunner hdone hname hnew state'
  have hresults : tree.Within (s.Results tree)
      ((s.sweep name).runConfigured runner t state').tree := by
    refine hbehind.within.mono ?_
    rintro loc ⟨other, hother, hloc⟩
    rcases List.mem_append.1 hother with hother | hother
    · exact ⟨other, hdone other hother, hloc⟩
    · obtain rfl := List.mem_singleton.1 hother
      exact ⟨other, hname, hloc⟩
  obtain ⟨hstatus, htree⟩ := (hplotter name hname).plot hresults
  dsimp only [Suite.runOne]
  rw [hverdict, hstatus, htree]
  exact ⟨rfl, hbehind⟩

/-- Benchmarks that follow others have the rows that they have alone, and leave what they leave
alone. -/
theorem Behind.runAll (h : s.Behind runner tree state done t) (hs : s.Separate tree)
    (hplotter : s.Unmoved host (s.Results tree) tree) (hrunner : runner.ByTrial said)
    (hnames : ∀ name ∈ done ++ names, name ∈ s.benchmarks) (hnew : (done ++ names).Nodup)
    (state' : σ) :
    (s.runAll host runner t state' names).rows = names.map (s.row host runner tree state) ∧
      s.Behind runner tree state (done ++ names) (s.runAll host runner t state' names).tree := by
  induction names generalizing t done state' with
  | nil =>
      rw [List.append_nil]
      exact ⟨rfl, h⟩
  | cons name rest ih =>
      have hdone : ∀ other ∈ done, other ∈ s.benchmarks := fun other hother =>
        hnames other (List.mem_append_left _ hother)
      have hname : name ∈ s.benchmarks :=
        hnames name (List.mem_append_right _ List.mem_cons_self)
      have hother : name ∉ done := fun hmem =>
        (List.nodup_append.1 hnew).2.2 name hmem name List.mem_cons_self rfl
      obtain ⟨hrow, hbehind⟩ := h.runOne hs hplotter hrunner hdone hname hother state'
      rw [List.append_cons] at hnames hnew ⊢
      obtain ⟨hrows, hlast⟩ := ih hbehind hnames hnew (s.runOne host runner t state' name).2.2.2
      exact ⟨congrArg₂ _ hrow hrows, hlast⟩

/-- Nothing is behind the first benchmark. -/
theorem behind_nil (s : Suite) (runner : Runner σ) (tree : Tree) (state : σ) :
    s.Behind runner tree state [] tree :=
  ⟨.refl _ tree, by simp⟩

/-- Trees behind the same benchmarks are alike. -/
theorem Behind.alike {t' : Tree} {done' : List String} (h : s.Behind runner tree state done t)
    (h' : s.Behind runner tree state done' t') (hsame : ∀ name, name ∈ done ↔ name ∈ done') :
    Tree.Alike t t' := by
  refine ⟨h'.within.larger.workingDirectory.trans h.within.larger.workingDirectory.symm,
    h'.within.busy.trans h.within.busy.symm, fun loc => ?_⟩
  by_cases hloc : ∃ name ∈ done, s.InResults tree name loc
  · obtain ⟨name, hname, hresults⟩ := hloc
    rw [h.results name hname loc hresults, h'.results name ((hsame name).1 hname) loc hresults]
  · have hloc' : ¬ ∃ name ∈ done', s.InResults tree name loc := by
      simpa only [hsame] using hloc
    rw [h.within.node? loc hloc, h'.within.node? loc hloc']

/-- The suite with other benchmarks. -/
def withBenchmarks (s : Suite) (names : List String) : Suite := { s with benchmarks := names }

theorem run_withBenchmarks (s : Suite) (names : List String) (host : Host) (runner : Runner σ)
    (t : Tree) (state : σ) :
    (s.withBenchmarks names).run host runner t state = s.runAll host runner t state names := by
  have hall (rest : List String) : (s.withBenchmarks names).runAll host runner t state rest =
      s.runAll host runner t state rest := by
    induction rest generalizing t state with
    | nil => rfl
    | cons name rest ih =>
        simp only [Suite.runAll, ih]
        rfl
  exact hall names

/-- The rows of benchmarks, one after the other. -/
theorem rows_runAll_cons (s : Suite) (host : Host) (runner : Runner σ) (t : Tree) (state : σ)
    (name : String) (rest : List String) :
    let swept := s.alone runner t state name
    (s.runAll host runner t state (name :: rest)).rows =
      ⟨name, sweepStatus swept.verdict, (s.plot host swept.tree name).status⟩ ::
        (s.runAll host runner (s.plot host swept.tree name).tree swept.state rest).rows :=
  rfl

theorem total_perm {rows rows' : List Row} (h : rows.Perm rows') : total rows = total rows' := by
  rw [total_eq, total_eq, sum, sum, (h.map _).sum_nat]

/-- Benchmarks do not influence one another, if what is said of a trial depends on the trial alone.
Each has a row of its own, which it also has in a suite of its own.  In whatever order they are run,
the rows are these in that order, the total is the same, and the trees that are left differ in
nothing but the stamps of files. -/
theorem run_permuted (s : Suite) (host : Host) (runner : Runner σ) (tree : Tree) (state : σ)
    (hs : s.Separate tree) (hplotter : s.Unmoved host (s.Results tree) tree)
    (hrunner : runner.ByTrial said) :
    ∃ row : String → Row,
      (∀ name ∈ s.benchmarks, ∀ state',
        ((s.withBenchmarks [name]).run host runner tree state').rows = [row name]) ∧
      ∀ names, names.Perm s.benchmarks → ∀ state',
        let ran := s.run host runner tree state
        let other := (s.withBenchmarks names).run host runner tree state'
        ran.rows = s.benchmarks.map row ∧ other.rows = names.map row ∧
          total other.rows = total ran.rows ∧ ran.tree.Alike other.tree := by
  have hall (names : List String) (hnames : ∀ name ∈ names, name ∈ s.benchmarks)
      (hnew : names.Nodup) (state' : σ) :
      (s.runAll host runner tree state' names).rows = names.map (s.row host runner tree state) ∧
        s.Behind runner tree state names (s.runAll host runner tree state' names).tree :=
    (s.behind_nil runner tree state).runAll hs hplotter hrunner hnames hnew state'
  refine ⟨s.row host runner tree state, fun name hname state' => ?_, fun names hperm state' => ?_⟩
  · rw [run_withBenchmarks]
    exact (hall [name] (by simpa using hname) (by simp) state').1
  · obtain ⟨hrows, hbehind⟩ := hall s.benchmarks (fun _ => id) hs.distinct state
    obtain ⟨hrows', hbehind'⟩ := hall names (fun _ => hperm.mem_iff.1)
      (hperm.nodup_iff.2 hs.distinct) state'
    dsimp only
    rw [run_withBenchmarks, run, hrows, hrows']
    refine ⟨rfl, rfl, total_perm (hperm.map _), ?_⟩
    exact hbehind.alike hbehind' fun name => hperm.mem_iff.symm

/-- A suite over two benchmarks, which are plotted by the standard plotter. -/
def pair : Suite := ⟨⟨"."⟩, ["a", "b"], 1, ⟨["libc", "hoard"], 2⟩, none⟩

/-- Its files: a recipe for each benchmark, something in the way of the second one, and a plotter
that exits with code 3. -/
def pairTree : Tree :=
  let config := Node.file 0 0o644 (.bytes (utf8 "[DEFAULT]\nmaxtime = 1\n"))
  [(["a", "bench", "tmp"], .directory 0o755), (["config", "a", "bench", "tmp"], config),
    (["b", "bench", "tmp"], .directory 0o755), (["config", "b", "bench", "tmp"], config),
    (["Results", "b", "bench", "tmp"], .directory 0o755),
    (["hoard", "Results", "b", "bench", "tmp"], .file 1 0o644 (.bytes [])),
    (["graphbench.pl", "bench", "tmp"], .file 2 0o755 (.program [.exit 3]))].foldl
    (fun t row => t.set row.1 row.2) Tree.bare

/-- Every trial writes the name of its allocator, and those on two threads fail. -/
def pairSaid (trial : Trial) (_ : Timeout) : Runner.Said :=
  ⟨[trial.allocator], fun written => written.map fun _ =>
    if trial.threads = 2 then .exited 1 else .success⟩

theorem separate_pair : pair.Separate pairTree where
  distinct := by decide
  benchmarks := by decide +kernel
  allocators := by decide +kernel
  unlinked _ _ loc _ _ := Tree.not_isLinkAt (by decide +kernel) loc

theorem unmoved_pair : pair.Unmoved Machine.plain.host (pair.Results pairTree) pairTree := by
  have hroot : pairTree.Reaches pair.root ["bench", "tmp"] := ⟨by decide +kernel, by decide +kernel⟩
  refine separate_pair.unmoved_of_standard Machine.plain rfl (by decide) hroot fun node hnode => ?_
  have hplotter : pairTree.node? ["graphbench.pl", "bench", "tmp"] =
      some (.file 2 0o755 (.program [.exit 3])) := by decide +kernel
  cases hplotter.symm.trans hnode
  exact ⟨2, 0o755, [.exit 3], rfl, by simp [Program.Quiet]⟩

/-- A program of a machine that does nothing but exit is a plotter of that status. -/
theorem plot_of_exit {m : Machine} {code : Nat}
    (hplotter : tree.runnable? s.plotterPath = .ok (.program [.exit code]))
    (hslash : s.plotterPath.text.toList.contains '/' = true)
    (hnul : (Path.holdsNul s.plotterPath.text || (s.plotterArgs name).any Path.holdsNul) = false)
    (hminus : s.plotterPath.text.toList.head? ≠ some '-')
    (hplus : s.plotterPath.text.toList.head? ≠ some '+') :
    s.plot m.host tree name = ⟨plotStatus (Ending.exited (UInt8.ofNat code)).status, [], tree⟩ := by
  rw [plot, Machine.start_program hplotter hslash hnul hminus hplus]
  rfl

theorem plot_pair {t : Tree} {name : String} (hname : name = "a" ∨ name = "b")
    (hplotter : t.runnable? pair.plotterPath = .ok (.program [.exit 3])) :
    pair.plot Machine.plain.host t name = ⟨3, [], t⟩ := by
  refine plot_of_exit hplotter ?_ ?_ ?_ ?_
  · decide
  · rcases hname with rfl | rfl <;> decide +kernel
  · decide
  · decide

/-- One benchmark has failing trials and the other is broken off, in whatever order. -/
theorem run_permuted_pair :
    let host := Machine.plain.host
    let runner := Runner.telling pairSaid
    pair.Separate pairTree ∧ pair.Unmoved host (pair.Results pairTree) pairTree ∧
      runner.ByTrial pairSaid ∧
      ∃ row : String → Row,
        row "a" = ⟨"a", 2, 3⟩ ∧ row "b" = ⟨"b", 1, 3⟩ ∧
        let ran := pair.run host runner pairTree ()
        let other := (pair.withBenchmarks ["b", "a"]).run host runner pairTree ()
        ran.rows = [row "a", row "b"] ∧ other.rows = [row "b", row "a"] ∧
          total other.rows = total ran.rows ∧ ran.tree.Alike other.tree := by
  intro host runner
  have hrunner : runner.ByTrial pairSaid := Runner.byTrial_telling pairSaid
  obtain ⟨row, halone, hall⟩ :=
    run_permuted pair host runner pairTree () separate_pair unmoved_pair hrunner
  have hrow (name : String) (status : Nat) (hname : name = "a" ∨ name = "b")
      (hstatus : sweepStatus (pair.alone runner pairTree () name).verdict = status)
      (hplotter : (pair.alone runner pairTree () name).tree.runnable? pair.plotterPath =
        .ok (.program [.exit 3])) : row name = ⟨name, status, 3⟩ := by
    have hrows := halone name (by simpa [pair] using hname) ()
    rw [run_withBenchmarks, rows_runAll_cons, plot_pair hname hplotter, hstatus] at hrows
    exact (List.cons.inj hrows).1.symm
  refine ⟨separate_pair, unmoved_pair, hrunner, row, hrow "a" 2 (.inl rfl) ?_ ?_,
    hrow "b" 1 (.inr rfl) ?_ ?_, hall ["b", "a"] (.swap "a" "b" []) ()⟩
  all_goals decide +kernel

/-- Two benchmarks, and a plotter that is looked for by way of results. -/
def byResults : Suite :=
  ⟨⟨"."⟩, ["a", "b"], 1, ⟨["libc"], 1⟩, some ⟨"./a/Results/../plot"⟩⟩

/-- Their files, without results; the plotter exits with code 0. -/
def byResultsTree : Tree :=
  let config := Node.file 0 0o644 (.bytes (utf8 "[DEFAULT]\nmaxtime = 1\n"))
  [(["a", "bench", "tmp"], .directory 0o755), (["config", "a", "bench", "tmp"], config),
    (["plot", "a", "bench", "tmp"], .file 1 0o755 (.program [.exit 0])),
    (["b", "bench", "tmp"], .directory 0o755), (["config", "b", "bench", "tmp"], config)].foldl
    (fun t row => t.set row.1 row.2) Tree.bare

/-- A plotter that is looked for by way of results is missing as long as there are none: the second
benchmark is plotted only if the first one was swept before it. -/
theorem plotter_by_results :
    let host := Machine.plain.host
    let runner := Runner.scripted []
    byResults.Separate byResultsTree ∧ (∃ said, runner.ByTrial said) ∧
      (¬ ∃ node, byResultsTree.Resolves byResults.plotterPath node) ∧
      (byResults.run host runner byResultsTree 0).rows = [⟨"a", 0, 0⟩, ⟨"b", 0, 0⟩] ∧
      ((byResults.withBenchmarks ["b"]).run host runner byResultsTree 0).rows =
        [⟨"b", 0, 1⟩] := by
  intro host runner
  have hplot {t : Tree} {name : String} (hname : name = "a" ∨ name = "b")
      (hplotter : t.runnable? byResults.plotterPath = .ok (.program [.exit 0])) :
      byResults.plot host t name = ⟨0, [], t⟩ := by
    refine plot_of_exit hplotter ?_ ?_ ?_ ?_
    · decide
    · rcases hname with rfl | rfl <;> decide +kernel
    · decide
    · decide
  refine ⟨⟨by decide, by decide +kernel, by decide +kernel,
    fun _ _ loc _ _ => Tree.not_isLinkAt (by decide +kernel) loc⟩,
    ⟨_, Runner.byTrial_scripted_nil⟩, ?_, ?_, ?_⟩
  · rintro ⟨node, hresolves⟩
    have hnone : byResultsTree.stat? byResults.plotterPath = none := by decide +kernel
    rw [Tree.stat?_eq_some_iff.2 hresolves] at hnone
    cases hnone
  · show (byResults.runAll host runner byResultsTree 0 ["a", "b"]).rows = _
    rw [rows_runAll_cons, hplot (.inl rfl) (by decide +kernel), rows_runAll_cons,
      hplot (.inr rfl) (by decide +kernel)]
    decide +kernel
  · obtain ⟨fault, hfault⟩ := Machine.start_of_not_runnable (m := Machine.plain)
      (t := (byResults.alone runner byResultsTree 0 "b").tree)
      (p := byResults.plotterPath) (e := .notFound) (by decide) (by decide +kernel)
      [(byResults.directory "b").text, "b"]
    rw [run_withBenchmarks, rows_runAll_cons, plot_of_error hfault]
    decide +kernel

end Suite

end BenchSweep
