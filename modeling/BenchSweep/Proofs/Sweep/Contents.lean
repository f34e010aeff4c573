import BenchSweep.Proofs.Runner.Script
import BenchSweep.Proofs.Sweep.Places
import BenchSweep.Proofs.Sweep.Turns

/-!
# What a sweep leaves in its logs

A sweep with a script is followed step by step, and the tree is known behind every step.

* `Sweep.output` : what the first iterations of an allocator on some threads write.
* `Sweep.Filing` : what is known behind every step; `Filing.takes` says that steps keep it.
* `Sweep.run_files` : the tree that a sweep leaves that goes through.
-/

namespace BenchSweep.Sweep

open Runner

/-! ## Outputs -/

/-- What the first iterations of an allocator on some threads write, if `count` prepared
trials were played before the sweep. -/
def output (s : Sweep) (cues : List Cue) (count position threads iterations : Nat) : List UInt8 :=
  (List.range' 1 iterations).flatMap fun i =>
    (cueAt cues (count + s.turn position threads i)).written

/-- What a step writes to the log of an allocator and a number of threads. -/
def wrote (s : Sweep) (cues : List Cue) (count : Nat) (a : String) (n : Nat) :
    Step → List UInt8
  | .trial p b m i =>
    if b = a ∧ m = n then (cueAt cues (count + s.turn p m i)).written else []
  | _ => []

/-- The allocator and the threads whose log is open behind a step. -/
def Step.pair? : Step → Option (String × Nat)
  | folder _ _ => none
  | log _ a n => some (a, n)
  | trial _ a n _ => some (a, n)

/-- The log of an allocator and a number of threads was opened, and these steps wrote to it. -/
def LoggedBy (s : Sweep) (cues : List Cue) (count : Nat) (done : List Step) (a : String) (n : Nat)
    (content : List UInt8) : Prop :=
  (∃ p, .log p a n ∈ done) ∧ content = done.flatMap (s.wrote cues count a n)

/-- The desk of a sweep with a script behind some steps, compared with the tree before. -/
structure Filing (s : Sweep) (cues : List Cue) (D : Location) (before : Tree) (count : Nat)
    (done : List Step) (d : Desk Nat) : Prop where
  filed : Filed s D Logged before d.tree (fun a => ∃ p, .folder p a ∈ done)
    (s.LoggedBy cues count done)
  root : d.tree.Reaches s.archive.root (resultsAt D)
  folders : ∀ p a, .folder p a ∈ done → d.tree.Reaches (s.archive.folder a) (folderAt D a)
  state : d.state = count + (done.flatMap s.turns).length
  log : ∀ a n, done.getLast?.bind Step.pair? = some (a, n) →
    d.tree.LogOpen (s.logAt D a n) (before.node? (s.logAt D a n))
      (done.flatMap (s.wrote cues count a n)) d.log.handle

section

variable {s : Sweep} {recipe : Recipe} {cues : List Cue} {D : Location} {before tree made : Tree}
  {count : Nat} {done rest : List Step} {step : Step} {d d' : Desk Nat} {reply : Step → Reply}
  {p n i : Nat} {a : String}

/-- An allocator is at one position only. -/
theorem PlacesBelow.not_mem_folder (hs : s.PlacesBelow before D)
    (hplan : s.plan = done ++ .folder p a :: rest) : ¬ ∃ q, .folder q a ∈ done := by
  rintro ⟨q, hq⟩
  obtain ⟨hplanned, hlt⟩ := (mem_iff_before hplan).1 hq
  obtain rfl := position_unique hs.distinct hplanned (planned_of_plan_eq hplan)
  exact Step.Before.irrefl _ hlt

/-- A log is opened once. -/
theorem PlacesBelow.not_mem_log (hs : s.PlacesBelow before D)
    (hplan : s.plan = done ++ .log p a n :: rest) : ¬ ∃ q, .log q a n ∈ done := by
  rintro ⟨q, hq⟩
  obtain ⟨hplanned, hlt⟩ := (mem_iff_before hplan).1 hq
  obtain rfl := position_unique hs.distinct hplanned.1 (planned_of_plan_eq hplan).1
  exact Step.Before.irrefl _ hlt

/-- Nothing is written for an allocator and a number of threads before their log is opened. -/
theorem PlacesBelow.flatMap_wrote_of_log (hs : s.PlacesBelow before D)
    (hplan : s.plan = done ++ .log p a n :: rest) :
    done.flatMap (s.wrote cues count a n) = [] := by
  rw [List.flatMap_eq_nil_iff]
  intro step hmem
  cases step with
  | folder => rfl
  | log => rfl
  | trial q b m i =>
      obtain ⟨hplanned, hlt⟩ := (mem_iff_before hplan).1 hmem
      refine if_neg ?_
      rintro ⟨rfl, rfl⟩
      obtain rfl := position_unique hs.distinct hplanned.1 (planned_of_plan_eq hplan).1
      simp only [Step.Before, Step.rank] at hlt
      omega

/-- A step adds to the log that is open, and to no other. -/
theorem loggedBy_concat (hpair : step.pair? = some (a, n)) (hlog : ∃ q, .log q a n ∈ done ++ [step])
    {b : String} {m : Nat} {content : List UInt8} :
    ¬ (b = a ∧ m = n) ∧ s.LoggedBy cues count done b m content ∨
        (b = a ∧ m = n) ∧
          content = done.flatMap (s.wrote cues count a n) ++ s.wrote cues count a n step ↔
      s.LoggedBy cues count (done ++ [step]) b m content := by
  unfold LoggedBy
  rw [List.flatMap_append, List.flatMap_singleton]
  by_cases hsame : b = a ∧ m = n
  · obtain ⟨rfl, rfl⟩ := hsame
    simp only [hlog, and_self, not_true_eq_false, false_and, false_or, true_and]
  · cases step with
    | folder => cases hpair
    | log q c k =>
        obtain ⟨rfl, rfl⟩ : c = a ∧ k = n := by simpa [Step.pair?] using hpair
        simp [hsame, wrote]
    | trial q c k i =>
        obtain ⟨rfl, rfl⟩ : c = a ∧ k = n := by simpa [Step.pair?] using hpair
        have hother : ¬ (c = b ∧ k = m) := fun h => hsame ⟨h.1.symm, h.2.symm⟩
        simp [hsame, wrote, hother]

theorem Filing.folder (hs : s.PlacesBelow before D) (h : Filing s cues D before count done d)
    (hplan : s.plan = done ++ .folder p a :: rest)
    (hstep : s.archive.ensureFolder d.tree a = .ok tree) :
    Filing s cues D before count (done ++ [.folder p a]) { d with tree } := by
  have ha : a ∈ s.allocators := List.mem_of_getElem? (planned_of_plan_eq hplan)
  have hlink := h.filed.not_isLinkAt (hs.folders a ha)
  obtain ⟨hsame, hnode, hreaches⟩ := ensureDirectory_ok h.root (hs.allocators a ha) hlink hstep
  have hext := Tree.extends_of_ensured hsame hnode
  refine ⟨?_, h.root.mono hext, ?_, by simp [h.state, turns], by simp [Step.pair?]⟩
  · refine (h.filed.ensure (hs.not_mem_folder hplan) hsame hnode).congr (fun b => ?_)
      fun b m content => by simp [LoggedBy, wrote]
    simp [exists_or]
  · intro q b hmem
    rcases List.mem_append.1 hmem with hmem | hmem
    · exact (h.folders q b hmem).mono hext
    · obtain ⟨rfl, rfl⟩ : q = p ∧ b = a := by simpa using hmem
      exact hreaches

theorem Filing.openLog (hs : s.PlacesBelow before D) (h : Filing s cues D before count done d)
    (hplan : s.plan = done ++ .log p a n :: rest) {log : ResultLog}
    (hstep : s.archive.openLog d.tree a s.benchmark n = .ok (tree, log)) :
    Filing s cues D before count (done ++ [.log p a n]) { d with tree, log } := by
  obtain ⟨hp, hn⟩ := planned_of_plan_eq hplan
  have ha : a ∈ s.allocators := List.mem_of_getElem? hp
  have hlink := h.filed.not_isLinkAt (hs.logs a ha n hn.1 hn.2)
  -- the folder comes before its logs, so that its path leads there
  have hfolder : .folder p a ∈ done := by
    refine (mem_iff_before hplan).2 ⟨hp, Or.inr ⟨rfl, Or.inl ?_⟩⟩
    exact hn.1
  obtain ⟨hsame, hlog⟩ : d.tree.SameBut tree (s.logAt D a n) ∧
      tree.LogOpen (s.logAt D a n) (d.tree.node? (s.logAt D a n)) [] log.handle :=
    Tree.openTruncated_ok (h.folders p a hfolder) (Archive.isComponent_logName hs.benchmark n) hlink
      (Archive.openLog_ok hstep).1
  -- no other step has touched the log
  have hwas : d.tree.node? (s.logAt D a n) = before.node? (s.logAt D a n) :=
    h.filed.node?_logAt fun content hl => hs.not_mem_log hplan hl.1
  have hempty : done.flatMap (s.wrote cues count a n) ++ s.wrote cues count a n (.log p a n) = [] :=
    List.append_eq_nil_iff.2 ⟨hs.flatMap_wrote_of_log hplan, rfl⟩
  rw [hwas, ← hempty] at hlog
  have hext := Tree.extends_of_logged hsame (hwas ▸ hlog.node)
  refine ⟨?_, h.root.mono hext, ?_, by simp [h.state, turns], ?_⟩
  · refine (h.filed.rewrite hsame hlog.node).congr (fun b => by simp) fun b m content => ?_
    exact loggedBy_concat rfl ⟨p, by simp⟩
  · intro q b hmem
    exact (h.folders q b (by simpa using hmem)).mono hext
  · intro b m hlast
    obtain ⟨rfl, rfl⟩ : a = b ∧ n = m := by simpa [Step.pair?] using hlast
    rw [List.flatMap_append, List.flatMap_singleton]
    exact hlog

/-- In front of a trial the log of its allocator and threads is open. -/
theorem pair?_of_trial (hplan : s.plan = done ++ .trial p a n i :: rest) :
    done.getLast?.bind Step.pair? = some (a, n) := by
  obtain ⟨front, rfl⟩ := eq_append_beforeTrial hplan
  rw [List.getLast?_concat]
  unfold Step.beforeTrial
  split <;> rfl

/-- What a trial does to the tree, from the log that the step before it left open. -/
theorem Filing.play_writes (h : Filing s cues D before count done d)
    (hplan : s.plan = done ++ .trial p a n i :: rest) {trial : Trial} {timeout : Timeout}
    {left : Attempt Nat} (hleft : (scripted cues).run trial timeout d.log d.tree d.state = left) :
    d.tree.SameBut left.tree (s.logAt D a n) ∧ left.state = d.state + 1 ∧
      match left.verdict with
      | .ok _ => left.tree.LogOpen (s.logAt D a n) (before.node? (s.logAt D a n))
          (done.flatMap (s.wrote cues count a n) ++ (cueAt cues (count + s.turn p n i)).written)
          left.log.handle
      | .error _ => Logged
          (done.flatMap (s.wrote cues count a n) ++ (cueAt cues (count + s.turn p n i)).spoken)
          (before.node? (s.logAt D a n)) (left.tree.node? (s.logAt D a n)) := by
  have hplay := Runner.play_writes (h.log a n (pair?_of_trial hplan)) (List.cons_ne_nil _ _)
    (cueAt cues d.state) (d.state + 1)
  rw [← scripted_run cues trial timeout, hleft, h.state, length_turns hplan] at hplay
  rw [h.state, length_turns hplan]
  exact hplay

theorem Filing.trial (h : Filing s cues D before count done d)
    (hplan : s.plan = done ++ .trial p a n i :: rest) {trial : Trial} {timeout : Timeout}
    {left : Attempt Nat} (hleft : (scripted cues).run trial timeout d.log d.tree d.state = left)
    {outcome : Outcome} (hv : left.verdict = .ok outcome) :
    Filing s cues D before count (done ++ [.trial p a n i]) ⟨left.tree, left.state, left.log⟩ := by
  obtain ⟨hsame, hstate, hlog⟩ := h.play_writes hplan hleft
  rw [hv] at hlog
  dsimp only at hlog
  have hwrote : s.wrote cues count a n (.trial p a n i) =
      (cueAt cues (count + s.turn p n i)).written := if_pos ⟨rfl, rfl⟩
  have hopened : ∃ q, .log q a n ∈ done ++ [.trial p a n i] := by
    obtain ⟨hp, hn, hi⟩ := planned_of_plan_eq hplan
    refine ⟨p, List.mem_append_left _ ((mem_iff_before hplan).2 ⟨⟨hp, hn⟩, ?_⟩)⟩
    exact Or.inr ⟨rfl, Or.inr ⟨rfl, hi.1⟩⟩
  have hext := Tree.extends_of_logs hsame (h.log a n (pair?_of_trial hplan)).node hlog.node
  refine ⟨?_, h.root.mono hext, ?_, ?_, ?_⟩
  · refine (h.filed.rewrite hsame hlog.node).congr (fun b => by simp) fun b m content => ?_
    rw [← hwrote]
    exact loggedBy_concat rfl hopened
  · intro q b hmem
    exact (h.folders q b (by simpa using hmem)).mono hext
  · rw [List.flatMap_append, List.length_append, ← Nat.add_assoc, ← h.state]
    exact hstate
  · intro b m hlast
    obtain ⟨rfl, rfl⟩ : a = b ∧ n = m := by simpa [Step.pair?] using hlast
    rw [List.flatMap_append, List.flatMap_singleton, hwrote]
    exact hlog

theorem Filing.takes (hs : s.PlacesBelow before D) (h : Filing s cues D before count done d)
    (hplan : s.plan = done ++ step :: rest)
    (hstep : Takes s recipe (scripted cues) reply d step d') :
    Filing s cues D before count (done ++ [step]) d' := by
  cases hstep with
  | folder hfolder => exact h.folder hs hplan hfolder
  | log hlog => exact h.openLog hs hplan hlog
  | trial hleft hv _ => exact h.trial hplan hleft hv

/-- Behind the opening of the archive nothing else is filed. -/
theorem filing_of_open (hs : s.PlacesBelow before D)
    (hopen : Archive.open? before s.directory = .ok (made, s.archive)) :
    Filing s cues D before count [] (Desk.start made count) := by
  obtain ⟨hmade, -⟩ := archive_open_ok hopen
  obtain ⟨hsame, hnode, hreaches⟩ := ensureDirectory_ok hs.directory (by decide) hs.root hmade
  refine ⟨⟨hnode, ?_, ?_, ?_⟩, hreaches, by simp, rfl, by simp⟩
  · rintro a ⟨p, hp⟩
    cases hp
  · rintro a n content ⟨⟨p, hp⟩, -⟩
    cases hp
  · intro loc hroot _ _
    exact hsame.node? loc hroot

/-- What is known behind steps that all went well. -/
theorem filing_of_taken (hs : s.PlacesBelow before D)
    (hopen : Archive.open? before s.directory = .ok (made, s.archive))
    (h : Taken s recipe (scripted cues) reply (Desk.start made count) done d)
    (hplan : s.plan = done ++ rest) : Filing s cues D before count done d :=
  h.invariant (fun hplan hd hstep => hd.takes hs hplan hstep)
    (show s.plan = [] ++ (done ++ rest) from hplan) (filing_of_open hs hopen)

/-- What the first trials of a plan wrote for an allocator and a number of threads. -/
theorem flatMap_wrote {k : Nat} (hs : s.PlacesBelow before D) (hp : s.allocators[p]? = some a)
    (hplan : s.plan = done ++ rest) (hdone : ∀ i, .trial p a n i ∈ done ↔ 1 ≤ i ∧ i ≤ k) :
    done.flatMap (s.wrote cues count a n) = s.output cues count p n k := by
  -- only the trials of the pair write to its log
  have hnil (step : Step) (hstep : Step.ofPair a n step = false) :
      s.wrote cues count a n step = [] := by
    cases step with
    | folder => rfl
    | log => rfl
    | trial q b m i => exact if_neg fun h => by simp [Step.ofPair, h] at hstep
  rw [← flatMap_filter_of_nil fun step _ => hnil step, filter_ofPair hs.distinct hp hplan hdone,
    List.flatMap_map]
  simp [output, wrote]

/-- What was logged, if it is known how many iterations each log has seen. -/
theorem loggedBy_iff (hs : s.PlacesBelow before D) (hplan : s.plan = done ++ rest) {k : Nat → Nat}
    (hdone : ∀ p, .log p a n ∈ done → ∀ i, .trial p a n i ∈ done ↔ 1 ≤ i ∧ i ≤ k p)
    {content : List UInt8} :
    s.LoggedBy cues count done a n content ↔
      ∃ p, .log p a n ∈ done ∧ content = s.output cues count p n (k p) := by
  have houtput {p : Nat} (hp : .log p a n ∈ done) :
      done.flatMap (s.wrote cues count a n) = s.output cues count p n (k p) := by
    have hplanned : s.Planned (.log p a n) := by
      rw [← mem_plan, hplan]
      exact List.mem_append_left rest hp
    exact flatMap_wrote hs hplanned.1 hplan (hdone p hp)
  constructor
  · rintro ⟨⟨p, hp⟩, rfl⟩
    exact ⟨p, hp, houtput hp⟩
  · rintro ⟨p, hp, rfl⟩
    exact ⟨⟨p, hp⟩, (houtput hp).symm⟩

end

/-- The tree that a sweep with a script leaves that goes through: the folders of its allocators
are there, the log of every allocator on every number of threads is a file that holds what its
iterations wrote, in their order, and nothing more, and all else is as before. -/
theorem run_files {s : Sweep} {tree : Tree} {D : Location} (hs : s.FilesBelow tree D)
    (recipe : Recipe) (cues : List Cue) (count : Nat) {tally : Tally}
    (h : (s.run recipe (scripted cues) tree count).verdict = .ok tally) :
    Filed s D Rewritten tree (s.run recipe (scripted cues) tree count).tree (· ∈ s.allocators)
      fun a n content => ∃ p, s.allocators[p]? = some a ∧ (1 ≤ n ∧ n ≤ s.maxThreads) ∧
        content = s.output cues count p n s.iterations := by
  obtain ⟨hi, made, hopen, reply, d, ht⟩ := taken_of_run_ok h
  have hplan : s.plan = s.plan ++ [] := (List.append_nil s.plan).symm
  have hd := filing_of_taken hs.toPlacesBelow hopen ht hplan
  rw [run_of_taken hi hopen ht]
  have hfiled := hd.filed.rewritten hs fun a n content hl => by
    obtain ⟨p, hp⟩ := hl.1
    obtain ⟨ha, hn⟩ := mem_plan.1 hp
    exact ⟨List.mem_of_getElem? ha, hn⟩
  refine hfiled.congr (fun a => ?_) fun a n content => ?_
  · rw [List.mem_iff_getElem?]
    simp only [mem_plan, Planned]
  · rw [loggedBy_iff hs.toPlacesBelow hplan (k := fun _ => s.iterations)]
    · simp only [mem_plan, Planned, and_assoc]
    · intro p hp i
      have hp := mem_plan.1 hp
      rw [mem_plan]
      exact ⟨fun h => h.2.2, fun hi => ⟨hp.1, hp.2, hi⟩⟩

/-- A log of an earlier sweep is written anew and keeps its mode. -/
theorem run_files_again :
    let D := ["bench", "tmp"]
    let s : Sweep := ⟨⟨"."⟩, "larson", ["libc"], 1, 2⟩
    let tree := ((Tree.bare.set (resultsAt D) (.directory 0o700)).set (folderAt D "libc")
      (.directory 0o755)).set (s.logAt D "libc" 1) (.file 7 0o600 (.bytes (utf8 "old\n")))
    let cues := [⟨["x"], none, .exited 2⟩, ⟨["y"], none, .success⟩]
    let ran := s.run ⟨10, []⟩ (scripted cues) tree 0
    s.FilesBelow tree D ∧ ran.verdict = .ok ⟨[⟨"./Results/libc/larson-1"⟩], 1⟩ ∧
      Rewritten (utf8 "x\nDied. 2\ny\n") (tree.node? (s.logAt D "libc" 1))
        (ran.tree.node? (s.logAt D "libc" 1)) := by
  intro D s tree cues ran
  have hs : s.FilesBelow tree D := by
    have honly : ∀ a ∈ s.allocators, ∀ n, 1 ≤ n → n ≤ s.maxThreads →
        tree.node? (s.logAt D a n) = some (.file 7 0o600 (.bytes (utf8 "old\n"))) := by
      intro a ha n hn hle
      obtain rfl : a = "libc" := List.mem_singleton.1 ha
      obtain rfl : n = 1 := Nat.le_antisymm hle hn
      decide +kernel
    refine ⟨⟨⟨by decide +kernel, by decide +kernel⟩, by decide, by decide, by decide,
      by decide +kernel, by decide +kernel, fun a ha n hn hle => ?_⟩, fun a ha n hn hle kind => ?_⟩
    · rintro ⟨target, hlink⟩
      cases (honly a ha n hn hle).symm.trans hlink
    · rw [honly a ha n hn hle]
      exact nofun
  have hran : ran.verdict = .ok ⟨[⟨"./Results/libc/larson-1"⟩], 1⟩ := by decide +kernel
  have hout : utf8 "x\nDied. 2\ny\n" = s.output cues 0 0 1 2 := by decide +kernel
  have hfiled := run_files hs ⟨10, []⟩ cues 0 hran
  refine ⟨hs, hran, hfiled.logs "libc" 1 _ ⟨0, rfl, by decide, hout⟩⟩

end BenchSweep.Sweep
