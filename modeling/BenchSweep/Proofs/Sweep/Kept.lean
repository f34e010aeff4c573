import BenchSweep.Proofs.Files.Replay
import BenchSweep.Proofs.Sweep.Calls
import BenchSweep.Proofs.Sweep.Contents

/-!
# Which results are kept

A sweep with a script goes through a list of allocators that may be any texts, in any tree.  Logs
are opened one after the other, and opening one empties what is there.

* `Sweep.LiesAt` : where the log of an allocator and a number of threads lies.
* `Sweep.Keeping` : what is known behind every step; `Keeping.takes` says that steps keep it.
* `Sweep.run_keeps_last` : of the results that lie in the same place the last one is kept.
-/

namespace BenchSweep

namespace Tree

variable {t t' : Tree} {loc : Location} {was : Option Node} {content : List UInt8}

/-- Is there a file with the content, or a device, which keeps nothing? -/
def Holds (t : Tree) (loc : Location) (content : List UInt8) : Prop :=
  (∃ stamp mode, t.node? loc = some (.file stamp mode (.bytes content))) ∨
    ∃ kind, t.node? loc = some (.device kind)

theorem holds_of_logged (h : Logged content was (t.node? loc)) : t.Holds loc content := by
  unfold Holds
  generalize t.node? loc = now at h
  rcases h with ⟨stamp | ⟨stamp, mode⟩⟩ | kind
  · exact Or.inl ⟨stamp, _, rfl⟩
  · exact Or.inl ⟨stamp, mode, rfl⟩
  · exact Or.inr ⟨kind, rfl⟩

theorem Holds.congr (h : t.Holds loc content)
    (hnode : ∀ node, t.node? loc = some node → t'.node? loc = some node) :
    t'.Holds loc content := by
  rcases h with ⟨stamp, mode, hfile⟩ | ⟨kind, hdevice⟩
  · exact Or.inl ⟨stamp, mode, hnode _ hfile⟩
  · exact Or.inr ⟨kind, hnode _ hdevice⟩

end Tree

namespace Sweep

open Runner

/-! ## Places -/

/-- Does the log of the allocator at a position, on a number of threads, lie at the location? -/
def LiesAt (s : Sweep) (t : Tree) (position threads : Nat) (loc : Location) : Prop :=
  ∃ a, s.Planned (.log position a threads) ∧
    t.locate .use (s.archive.logPath a s.benchmark threads) = .ok (.found loc)

/-- Is the second of two logs, given by position and threads, opened behind the first? -/
def Later (p n q m : Nat) : Prop := p < q ∨ p = q ∧ n < m

/-- What a step writes to the log of a position and a number of threads. -/
def wroteAt (s : Sweep) (cues : List Cue) (count p n : Nat) : Step → List UInt8
  | .trial q _ m i => if q = p ∧ m = n then (cueAt cues (count + s.turn q m i)).written else []
  | _ => []

/-- The position and the threads whose log is open behind a step. -/
def Step.row? : Step → Option (Nat × Nat)
  | folder _ _ => none
  | log p _ n => some (p, n)
  | trial p _ n _ => some (p, n)

/-- Is the step a trial of the allocator at the position, on the number of threads? -/
def Step.ofRow (p n : Nat) : Step → Bool
  | .trial q _ m _ => q = p && m = n
  | _ => false

/-- The desk of a sweep with a script behind some steps: every log that was opened is where its
path leads, and it holds what was written to it unless a later one was opened there. -/
structure Keeping (s : Sweep) (cues : List Cue) (count : Nat) (done : List Step) (d : Desk Nat) :
    Prop where
  state : d.state = count + (done.flatMap s.turns).length
  found : ∀ p a n, .log p a n ∈ done → ∃ loc, s.LiesAt d.tree p n loc
  holds : ∀ p a n loc, .log p a n ∈ done → s.LiesAt d.tree p n loc →
    (∀ q b m, .log q b m ∈ done → s.LiesAt d.tree q m loc → ¬ Later p n q m) →
    d.tree.Holds loc (done.flatMap (s.wroteAt cues count p n))
  log : ∀ p n, done.getLast?.bind Step.row? = some (p, n) → ∃ loc was, loc ≠ [] ∧
    s.LiesAt d.tree p n loc ∧
      d.tree.LogOpen loc was (done.flatMap (s.wroteAt cues count p n)) d.log.handle

section

variable {s : Sweep} {recipe : Recipe} {cues : List Cue} {tree made : Tree} {count : Nat}
  {done rest : List Step} {step : Step} {d d' : Desk Nat} {reply : Step → Reply}
  {p q n m i : Nat} {a b : String} {loc loc' : Location}

theorem LiesAt.unique (h : s.LiesAt tree p n loc) (h' : s.LiesAt tree p n loc') : loc = loc' := by
  obtain ⟨a, hplanned, hloc⟩ := h
  obtain ⟨b, hplanned', hloc'⟩ := h'
  obtain rfl : a = b := Option.some.inj (hplanned.1.symm.trans hplanned'.1)
  cases hloc.symm.trans hloc'
  rfl

theorem LiesAt.mono (h : s.LiesAt tree p n loc) (hextends : tree.Extends made) :
    s.LiesAt made p n loc := by
  obtain ⟨a, hplanned, hloc⟩ := h
  exact ⟨a, hplanned, hextends.locate hloc nofun⟩

/-- In front of a step stand the logs that are opened earlier, and only those. -/
theorem later_of_mem (hplan : s.plan = done ++ step :: rest) (hrow : step.row? = some (p, n))
    (hmem : .log q b m ∈ done) (hne : ¬ (q = p ∧ m = n)) : Later q m p n := by
  have hlt := ((mem_iff_before hplan).1 hmem).2
  unfold Later
  cases step with
  | folder => cases hrow
  | log =>
      cases hrow
      simp only [Step.Before, Step.rank] at hlt
      omega
  | trial =>
      cases hrow
      simp only [Step.Before, Step.rank] at hlt
      omega

/-- Nothing is written for a row before its log is opened. -/
theorem flatMap_wroteAt_of_log (hplan : s.plan = done ++ .log p a n :: rest) :
    done.flatMap (s.wroteAt cues count p n) = [] := by
  rw [List.flatMap_eq_nil_iff]
  intro step hmem
  cases step with
  | folder => rfl
  | log => rfl
  | trial q b m i =>
      have hlt := ((mem_iff_before hplan).1 hmem).2
      refine if_neg ?_
      rintro ⟨rfl, rfl⟩
      simp only [Step.Before, Step.rank] at hlt
      omega

/-! ## One step -/

/-- A log that was opened before a step holds the same behind it, if the step leaves its place as
it was. -/
theorem Keeping.holds_mono (h : Keeping s cues count done d) (hextends : d.tree.Extends tree)
    (hlog : .log p a n ∈ done) (hlies : s.LiesAt tree p n loc)
    (hlast : ∀ q b m, .log q b m ∈ done → s.LiesAt tree q m loc → ¬ Later p n q m)
    (hnode : ∀ node, d.tree.node? loc = some node → tree.node? loc = some node) :
    tree.Holds loc (done.flatMap (s.wroteAt cues count p n)) := by
  obtain ⟨loc', hlies'⟩ := h.found p a n hlog
  obtain rfl := (hlies'.mono hextends).unique hlies
  refine (h.holds p a n _ hlog hlies' fun q b m hmem hthere => ?_).congr hnode
  exact hlast q b m hmem (hthere.mono hextends)

theorem Keeping.folder (h : Keeping s cues count done d)
    (hstep : s.archive.ensureFolder d.tree a = .ok tree) :
    Keeping s cues count (done ++ [.folder p a]) { d with tree } := by
  have hextends := (Tree.grows_of_ensureDirectory hstep).extends
  have hmem {q : Nat} {b : String} {m : Nat} (hlog : .log q b m ∈ done ++ [.folder p a]) :
      Step.log q b m ∈ done := by simpa using hlog
  have hwrote {q m : Nat} : (done ++ [Step.folder p a]).flatMap (s.wroteAt cues count q m) =
      done.flatMap (s.wroteAt cues count q m) := by simp [wroteAt]
  refine ⟨by simp [h.state, turns], fun q b m hlog => ?_, fun q b m loc hlog hlies hlast => ?_,
    by simp [Step.row?]⟩
  · obtain ⟨loc, hlies⟩ := h.found q b m (hmem hlog)
    exact ⟨loc, hlies.mono hextends⟩
  · rw [hwrote]
    refine h.holds_mono hextends (hmem hlog) hlies
      (fun r c k hlog => hlast r c k (List.mem_append_left _ hlog)) fun node hnode => ?_
    -- a folder is made where nothing was
    rcases (ensureDirectory_cases hstep).2 with rfl | ⟨free, mode, hfree, rfl⟩
    · exact hnode
    · rwa [Tree.node?_set _ _ (Tree.ne_nil_of_free hfree), if_neg]
      rintro rfl
      cases hfree.symm.trans hnode

/-- Of the other logs a step keeps those that lie elsewhere. -/
theorem Keeping.holds_of_ne (h : Keeping s cues count done d) (hextends : d.tree.Extends tree)
    (hplan : s.plan = done ++ step :: rest) (hrow : step.row? = some (p, n))
    (hthere : s.LiesAt tree p n loc) (hhere : .log p a n ∈ done ++ [step])
    (hsame : d.tree.SameBut tree loc) (hlog : .log q b m ∈ done) (hne : ¬ (q = p ∧ m = n))
    (hlies : s.LiesAt tree q m loc')
    (hlast : ∀ r c k, .log r c k ∈ done ++ [step] → s.LiesAt tree r k loc' → ¬ Later q m r k) :
    tree.Holds loc' (done.flatMap (s.wroteAt cues count q m)) := by
  have hloc : loc' ≠ loc := by
    rintro rfl
    exact hlast p a n hhere hthere (later_of_mem hplan hrow hlog hne)
  refine h.holds_mono hextends hlog hlies
    (fun r c k hlog => hlast r c k (List.mem_append_left _ hlog)) fun node hnode => ?_
  rw [hsame.node? _ hloc, hnode]

theorem Keeping.openLog (h : Keeping s cues count done d)
    (hplan : s.plan = done ++ .log p a n :: rest) {log : ResultLog}
    (hstep : s.archive.openLog d.tree a s.benchmark n = .ok (tree, log)) :
    Keeping s cues count (done ++ [.log p a n]) { d with tree, log } := by
  obtain ⟨hnul, hopens⟩ := Tree.openTruncated_eq_ok_iff.1 (Archive.openLog_ok hstep).1
  have hextends := hopens.grows.extends
  obtain ⟨loc, was, hne, hsame, hlog, hspot⟩ := hopens.logOpen
  have hthere : s.LiesAt tree p n loc := ⟨a, planned_of_plan_eq hplan, Tree.locate_use hspot⟩
  have hwrote {q m : Nat} : (done ++ [Step.log p a n]).flatMap (s.wroteAt cues count q m) =
      done.flatMap (s.wroteAt cues count q m) := by simp [wroteAt]
  have hhere : .log p a n ∈ done ++ [.log p a n] := by simp
  refine ⟨by simp [h.state, turns], fun q b m hmem => ?_, fun q b m loc' hmem hlies hlast => ?_,
    fun q m hrow => ?_⟩
  · rcases List.mem_append.1 hmem with hmem | hmem
    · obtain ⟨loc', hlies⟩ := h.found q b m hmem
      exact ⟨loc', hlies.mono hextends⟩
    · cases List.mem_singleton.1 hmem
      exact ⟨loc, hthere⟩
  · rw [hwrote]
    by_cases hrow : q = p ∧ m = n
    · obtain ⟨rfl, rfl⟩ := hrow
      obtain rfl := hthere.unique hlies
      rw [flatMap_wroteAt_of_log hplan]
      exact Tree.holds_of_logged hlog.node
    · have hmem : .log q b m ∈ done := by
        rcases List.mem_append.1 hmem with hmem | hmem
        · exact hmem
        · cases List.mem_singleton.1 hmem
          exact absurd ⟨rfl, rfl⟩ hrow
      exact h.holds_of_ne hextends hplan rfl hthere hhere hsame hmem hrow hlies hlast
  · obtain ⟨rfl, rfl⟩ : p = q ∧ n = m := by simpa [Step.row?] using hrow
    rw [hwrote, flatMap_wroteAt_of_log hplan]
    exact ⟨loc, was, hne, hthere, hlog⟩

/-- In front of a trial the log of its row is open. -/
theorem row?_of_trial (hplan : s.plan = done ++ .trial p a n i :: rest) :
    done.getLast?.bind Step.row? = some (p, n) := by
  obtain ⟨front, rfl⟩ := eq_append_beforeTrial hplan
  rw [List.getLast?_concat]
  unfold Step.beforeTrial
  split <;> rfl

theorem Keeping.trial (h : Keeping s cues count done d)
    (hplan : s.plan = done ++ .trial p a n i :: rest) {left : Attempt Nat} {outcome : Outcome}
    (hleft : (scripted cues).run (s.trial recipe a n i) recipe.timeout d.log d.tree d.state = left)
    (hv : left.verdict = .ok outcome) :
    Keeping s cues count (done ++ [.trial p a n i]) ⟨left.tree, left.state, left.log⟩ := by
  obtain ⟨loc, was, hne, hlies, hlog⟩ := h.log p n (row?_of_trial hplan)
  have hplay := Runner.play_writes hlog hne (cueAt cues d.state) (d.state + 1)
  rw [← scripted_run cues (s.trial recipe a n i) recipe.timeout, hleft] at hplay
  obtain ⟨hsame, hstate, hlog'⟩ := hplay
  simp only [hv, h.state, length_turns hplan] at hlog'
  have hextends := Tree.extends_of_logs hsame hlog.node hlog'.node
  have hthere := hlies.mono hextends
  have hwrote : (done ++ [Step.trial p a n i]).flatMap (s.wroteAt cues count p n) =
      done.flatMap (s.wroteAt cues count p n) ++ (cueAt cues (count + s.turn p n i)).written := by
    simp [wroteAt]
  have hopened : .log p a n ∈ done := by
    obtain ⟨hp, hn, hi⟩ := planned_of_plan_eq hplan
    exact (mem_iff_before hplan).2 ⟨⟨hp, hn⟩, Or.inr ⟨rfl, Or.inr ⟨rfl, hi.1⟩⟩⟩
  have hmem {q : Nat} {b : String} {m : Nat} (hlog : .log q b m ∈ done ++ [.trial p a n i]) :
      Step.log q b m ∈ done := by simpa using hlog
  refine ⟨?_, fun q b m hlog => ?_, fun q b m loc' hlog hlies' hlast => ?_, fun q m hrow => ?_⟩
  · rw [List.flatMap_append, List.length_append, ← Nat.add_assoc, ← h.state]
    exact hstate
  · obtain ⟨loc', hlies'⟩ := h.found q b m (hmem hlog)
    exact ⟨loc', hlies'.mono hextends⟩
  · by_cases hrow : q = p ∧ m = n
    · obtain ⟨rfl, rfl⟩ := hrow
      obtain rfl := hthere.unique hlies'
      rw [hwrote]
      exact Tree.holds_of_logged hlog'.node
    · have hother : (done ++ [Step.trial p a n i]).flatMap (s.wroteAt cues count q m) =
          done.flatMap (s.wroteAt cues count q m) := by
        have hne : ¬ (p = q ∧ n = m) := fun heq => hrow ⟨heq.1.symm, heq.2.symm⟩
        simp [wroteAt, hne]
      rw [hother]
      exact h.holds_of_ne hextends hplan rfl hthere (List.mem_append_left _ hopened) hsame
        (hmem hlog) hrow hlies' hlast
  · obtain ⟨rfl, rfl⟩ : p = q ∧ n = m := by simpa [Step.row?] using hrow
    rw [hwrote]
    exact ⟨loc, was, hne, hthere, hlog'⟩

theorem Keeping.takes (h : Keeping s cues count done d) (hplan : s.plan = done ++ step :: rest)
    (hstep : Takes s recipe (scripted cues) reply d step d') :
    Keeping s cues count (done ++ [step]) d' := by
  cases hstep with
  | folder hfolder => exact h.folder hfolder
  | log hlog => exact h.openLog hplan hlog
  | trial hleft hv _ => exact h.trial hplan hleft hv

/-- What is known behind steps that all went well. -/
theorem keeping_of_taken
    (h : Taken s recipe (scripted cues) reply (Desk.start made count) done d)
    (hplan : s.plan = done ++ rest) : Keeping s cues count done d :=
  h.invariant (fun hplan hd hstep => hd.takes hplan hstep)
    (show s.plan = [] ++ (done ++ rest) from hplan) ⟨rfl, by simp, by simp, by simp⟩

/-! ## All steps -/

/-- The trials of a row stand in the plan in the order of their iterations. -/
theorem filter_ofRow (hplanned : s.Planned (.log p a n)) :
    s.plan.filter (Step.ofRow p n) = (List.range' 1 s.iterations).map (.trial p a n) := by
  refine filter_eq_trials (List.append_nil _).symm fun step => ?_
  rw [mem_plan]
  constructor
  · rintro ⟨hstep, hrow⟩
    cases step with
    | folder => cases hrow
    | log => cases hrow
    | trial q b m i =>
        obtain ⟨rfl, rfl⟩ : q = p ∧ m = n := by simpa [Step.ofRow] using hrow
        obtain rfl : a = b := Option.some.inj (hplanned.1.symm.trans hstep.1)
        exact ⟨i, hstep.2.2, rfl⟩
  · rintro ⟨i, hi, rfl⟩
    exact ⟨⟨hplanned.1, hplanned.2, hi⟩, by simp [Step.ofRow]⟩

/-- All that is written for a row is the output of its iterations. -/
theorem flatMap_wroteAt (hplanned : s.Planned (.log p a n)) :
    s.plan.flatMap (s.wroteAt cues count p n) = s.output cues count p n s.iterations := by
  have hnil (step : Step) (hstep : Step.ofRow p n step = false) :
      s.wroteAt cues count p n step = [] := by
    cases step with
    | folder => rfl
    | log => rfl
    | trial q b m i => exact if_neg fun h => by simp [Step.ofRow, h] at hstep
  rw [← flatMap_filter_of_nil fun step _ => hnil step, filter_ofRow hplanned, List.flatMap_map]
  simp [output, wroteAt]

/-- Behind all steps the last log in a place holds all that its iterations wrote. -/
theorem Keeping.holds_last (h : Keeping s cues count s.plan d) (hlies : s.LiesAt d.tree p n loc)
    (hlast : ∀ q m, s.LiesAt d.tree q m loc → ¬ Later p n q m) :
    d.tree.Holds loc (s.output cues count p n s.iterations) := by
  have hthere := hlies
  obtain ⟨a, hplanned, -⟩ := hlies
  rw [← flatMap_wroteAt hplanned]
  exact h.holds p a n loc (mem_plan.2 hplanned) hthere fun q b m _ hother => hlast q m hother

/-- Below a directory every log lies at a location of its own. -/
theorem Filing.logAt_of_liesAt {D : Location} {before : Tree} (hs : s.PlacesBelow before D)
    (h : Filing s cues D before count s.plan d) (hlies : s.LiesAt d.tree p n loc) :
    ∃ a, s.allocators[p]? = some a ∧ loc = s.logAt D a n := by
  obtain ⟨a, hplanned, hspot⟩ := hlies
  have ha := List.mem_of_getElem? hplanned.1
  have hlink := h.filed.not_isLinkAt (hs.logs a ha n hplanned.2.1 hplanned.2.2)
  have hfolder := h.folders p a (mem_plan.2 hplanned.1)
  obtain ⟨-, ⟨-, hfound⟩ | ⟨-, hvacant⟩⟩ :=
    hfolder.spot_cases (Archive.isComponent_logName hs.benchmark n) hlink hspot
  · cases hfound
    exact ⟨a, hplanned.1, rfl⟩
  · cases hvacant

/-- Of the logs in a place one is the last. -/
theorem exists_last (h : s.LiesAt tree p n loc) :
    ∃ q m, s.LiesAt tree q m loc ∧ ∀ r k, s.LiesAt tree r k loc → ¬ Later q m r k := by
  classical
  -- the logs in this place, in the order of the plan
  let here (step : Step) : Bool :=
    decide (∃ q b m, step = .log q b m ∧ s.LiesAt tree q m loc)
  have hmem {q m : Nat} (hlies : s.LiesAt tree q m loc) :
      ∃ b, Step.log q b m ∈ s.plan.filter here := by
    obtain ⟨b, hplanned, hspot⟩ := hlies
    refine ⟨b, List.mem_filter.2 ⟨mem_plan.2 hplanned, ?_⟩⟩
    exact decide_eq_true ⟨q, b, m, rfl, b, hplanned, hspot⟩
  obtain ⟨b, hb⟩ := hmem h
  rcases List.eq_nil_or_concat (s.plan.filter here) with hnil | ⟨front, last, hfront⟩
  · rw [hnil] at hb
    cases hb
  · rw [List.concat_eq_append] at hfront
    have hlast : last ∈ s.plan.filter here := by simp [hfront]
    obtain ⟨q, c, m, rfl, hlies⟩ := of_decide_eq_true (List.mem_filter.1 hlast).2
    refine ⟨q, m, hlies, fun r k hother hlater => ?_⟩
    obtain ⟨e, he⟩ := hmem hother
    have hbefore : (Step.log q c m).Before (.log r e k) := by
      simp only [Step.Before, Step.rank]
      unfold Later at hlater
      omega
    have hsorted := s.plan_pairwise.filter here
    rw [hfront, List.mem_append] at he
    rw [hfront, List.pairwise_append] at hsorted
    rcases he with he | he
    · exact (hsorted.2.2 _ he _ (List.mem_singleton.2 rfl)).asymm hbefore
    · rw [List.mem_singleton.1 he] at hbefore
      exact Step.Before.irrefl _ hbefore

/-- The list of logs goes through the allocators, and for each through the numbers of threads. -/
theorem getElem?_logPaths (hplanned : s.Planned (.log p a n)) :
    s.logPaths[p * s.maxThreads + (n - 1)]? = some (s.archive.logPath a s.benchmark n) := by
  obtain ⟨hp, hn, hle⟩ := hplanned
  have hblocks (allocators : List String) (p : Nat) (hp : allocators[p]? = some a) :
      (allocators.flatMap fun b => (List.range' 1 s.maxThreads).map fun m =>
        s.archive.logPath b s.benchmark m)[p * s.maxThreads + (n - 1)]? =
          some (s.archive.logPath a s.benchmark n) := by
    induction allocators generalizing p with
    | nil => cases hp
    | cons b rest ih =>
        rw [List.flatMap_cons]
        cases p with
        | zero =>
            cases hp
            rw [List.getElem?_append_left (by simp; omega), List.getElem?_map, Nat.zero_mul,
              Nat.zero_add, List.getElem?_range' (by omega), Option.map_some]
            congr 2
            omega
        | succ p =>
            rw [List.getElem?_append_right (by simp [Nat.succ_mul]; omega), ← ih p hp]
            congr 1
            simp only [List.length_map, List.length_range', Nat.succ_mul]
            omega
  exact hblocks s.allocators p hp

theorem length_logPaths (s : Sweep) : s.logPaths.length = s.allocators.length * s.maxThreads := by
  simp [logPaths, List.length_flatMap]

end

/-- A sweep that goes through lists as many logs as there are allocators and numbers of threads
for each.  Every log lies somewhere, and of all logs that lie in the same place the last one is
kept there: with all that its iterations wrote, unless the place is a device.  So no result is lost
if no two logs lie in the same place.  That is so if all allocators have different names without a
slash, other than the dots, and no symbolic link leads the results elsewhere. -/
theorem run_keeps_last (s : Sweep) (recipe : Recipe) (cues : List Cue) (tree : Tree) (count : Nat)
    (tally : Tally) (h : (s.run recipe (scripted cues) tree count).verdict = .ok tally) :
    let left := (s.run recipe (scripted cues) tree count).tree
    tally.logs.length = s.allocators.length * s.maxThreads ∧
      (∀ p a n, s.allocators[p]? = some a → 1 ≤ n → n ≤ s.maxThreads →
        tally.logs[p * s.maxThreads + (n - 1)]? = some (s.archive.logPath a s.benchmark n) ∧
          ∃ loc, s.LiesAt left p n loc) ∧
      (∀ p n loc, s.LiesAt left p n loc → ∃ q m, s.LiesAt left q m loc ∧
        (∀ r k, s.LiesAt left r k loc → ¬ Later q m r k) ∧
          left.Holds loc (s.output cues count q m s.iterations)) ∧
      ((∀ p n q m loc, s.LiesAt left p n loc → s.LiesAt left q m loc → p = q ∧ n = m) →
        ∀ p n loc, s.LiesAt left p n loc →
          left.Holds loc (s.output cues count p n s.iterations)) ∧
      ∀ D, s.PlacesBelow tree D →
        ∀ p n q m loc, s.LiesAt left p n loc → s.LiesAt left q m loc → p = q ∧ n = m := by
  obtain ⟨hi, made, hopen, reply, d, ht⟩ := taken_of_run_ok h
  have hplan : s.plan = s.plan ++ [] := (List.append_nil s.plan).symm
  have hkeeping := keeping_of_taken ht hplan
  rw [run_of_taken hi hopen ht] at h ⊢
  cases h
  intro left
  have hlast : ∀ p n loc, s.LiesAt left p n loc → ∃ q m, s.LiesAt left q m loc ∧
      (∀ r k, s.LiesAt left r k loc → ¬ Later q m r k) ∧
        left.Holds loc (s.output cues count q m s.iterations) := by
    intro p n loc hlies
    obtain ⟨q, m, hthere, hlast⟩ := exists_last hlies
    exact ⟨q, m, hthere, hlast, hkeeping.holds_last hthere hlast⟩
  refine ⟨?_, fun p a n hp hn hle => ?_, hlast, fun hdifferent p n loc hlies => ?_,
    fun D hs p n q m loc hlies hlies' => ?_⟩
  · rw [← logPaths_eq, length_logPaths]
  · have hplanned : s.Planned (.log p a n) := ⟨hp, hn, hle⟩
    rw [← logPaths_eq]
    exact ⟨getElem?_logPaths hplanned, hkeeping.found p a n (mem_plan.2 hplanned)⟩
  · obtain ⟨q, m, hlies', -, hholds⟩ := hlast p n loc hlies
    obtain ⟨rfl, rfl⟩ := hdifferent p n q m loc hlies hlies'
    exact hholds
  · have hfiling := filing_of_taken hs hopen ht hplan
    obtain ⟨a, hp, rfl⟩ := hfiling.logAt_of_liesAt hs hlies
    obtain ⟨b, hq, heq⟩ := hfiling.logAt_of_liesAt hs hlies'
    obtain ⟨rfl, rfl⟩ := logAt_injective heq
    exact ⟨position_unique hs.distinct hp hq, rfl⟩

/-- A sweep over one allocator that is named in two ways, and over another one. -/
def twiceNamed : Sweep := ⟨⟨"."⟩, "larson", ["libc", "libc/.", "hoard"], 1, 1⟩

/-- The trials of this sweep. -/
def twiceNamedCues : List Cue :=
  [⟨["x"], none, .success⟩, ⟨["y"], none, .success⟩, ⟨["z"], none, .exited 2⟩]

/-- Of the results of the allocator that is named twice the second is kept. -/
theorem run_keeps_last_twiceNamed :
    let ran := twiceNamed.run ⟨10, []⟩ (scripted twiceNamedCues) Tree.bare 0
    let loc := ["larson-1", "libc", "Results", "bench", "tmp"]
    ran.verdict = .ok ⟨twiceNamed.logPaths, 1⟩ ∧ twiceNamed.LiesAt ran.tree 0 1 loc ∧
      ∃ q m, twiceNamed.LiesAt ran.tree q m loc ∧
        (∀ r k, twiceNamed.LiesAt ran.tree r k loc → ¬ Later q m r k) ∧
          ran.tree.Holds loc (twiceNamed.output twiceNamedCues 0 q m 1) := by
  intro ran loc
  have hran : ran.verdict = .ok ⟨twiceNamed.logPaths, 1⟩ := by decide +kernel
  have hlies : twiceNamed.LiesAt ran.tree 0 1 loc :=
    ⟨"libc", ⟨rfl, by decide, by decide⟩, by decide +kernel⟩
  exact ⟨hran, hlies, (run_keeps_last twiceNamed ⟨10, []⟩ twiceNamedCues Tree.bare 0 _ hran).2.2.1
    0 1 loc hlies⟩

/-- A sweep over one allocator twice: its report lists one log twice, and what the first trial
wrote is lost. -/
theorem repeated_allocator_loses :
    let s : Sweep := ⟨⟨"."⟩, "larson", ["libc", "libc"], 1, 1⟩
    let cues : List Cue := [⟨["x"], none, .success⟩, ⟨["y"], none, .success⟩]
    let ran := s.run ⟨5, []⟩ (scripted cues) Tree.bare 0
    ran.verdict = .ok ⟨[⟨"./Results/libc/larson-1"⟩, ⟨"./Results/libc/larson-1"⟩], 0⟩ ∧
      s.output cues 0 0 1 1 = utf8 "x\n" ∧
      ran.tree.stat? ⟨"./Results/libc/larson-1"⟩ =
        some (.file 0 0o755 (.bytes (utf8 "y\n"))) := by
  decide +kernel

end Sweep

end BenchSweep
