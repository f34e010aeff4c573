import BenchSweep.Proofs.Runner.Script
import BenchSweep.Proofs.Sweep.Calls

/-!
# Running a sweep again

A sweep that went through is run once more, on the tree that it left, with the same script from
the same place on.

* `Sweep.Repeats` : how the desk of the second run stands beside that of the first.
* `Sweep.Taken.again` : the steps of the first run go well in the second, with the same replies.
* `Sweep.run_again` : the second run does, tells and leaves what the first one did.
-/

namespace BenchSweep.Sweep

variable {s : Sweep} {recipe : Recipe} {cues : List Runner.Cue} {reply : Step → Reply}
  {d d' e : Desk Nat} {step : Step} {steps : List Step} {tree last : Tree}

/-! ## The steps of the first run -/

/-- A trial that goes well is a number of writes to the log that is open. -/
theorem writeAll_of_takes_trial {p n i : Nat} {a : String} {left : Attempt Nat}
    (h : (Runner.scripted cues).run (s.trial recipe a n i) recipe.timeout d.log d.tree d.state =
      left)
    (hv : left.verdict = .ok (reply (.trial p a n i)).outcome) :
    d.tree.writeAll d.log.handle (Runner.cueAt cues d.state).chunks =
      .ok (left.tree, left.log.handle) := by
  obtain ⟨verdict, log, tree, state⟩ := left
  obtain rfl : verdict = _ := hv
  rw [Runner.scripted_run] at h
  obtain ⟨-, -, -, handle, hwrite, rfl⟩ := Runner.play_eq_ok_iff.1 h
  exact hwrite

/-- No step takes anything away. -/
theorem Takes.grows (h : Takes s recipe (.scripted cues) reply d step d') :
    d.tree.Grows d'.tree := by
  cases h with
  | folder h => exact Tree.grows_of_ensureDirectory h
  | log h => exact (Tree.openTruncated_eq_ok_iff.1 (Archive.openLog_ok h).1).2.grows
  | trial h hv => exact Tree.grows_of_writeAll (writeAll_of_takes_trial h hv)

theorem Taken.grows (h : Taken s recipe (.scripted cues) reply d steps d') :
    d.tree.Grows d'.tree := by
  induction h with
  | nil => exact .refl _
  | cons h _ ih => exact h.grows.trans ih

/-! ## The steps of the second run -/

/-- The desk `e` of the second run beside the desk `d` that the first run had at that time: the
script is at the same place, and the same log is open. -/
structure Repeats (last : Tree) (d e : Desk Nat) : Prop where
  tree : Tree.Replays last d.tree e.tree d.log.handle
  state : e.state = d.state
  log : e.log = d.log

/-- A step that went well goes well again, with the same reply. -/
theorem Takes.again (h : Takes s recipe (.scripted cues) reply d step d')
    (hlast : d'.tree.Grows last) (he : Repeats last d e) :
    ∃ e', Takes s recipe (.scripted cues) reply e step e' ∧ Repeats last d' e' := by
  obtain ⟨hreplays, hstate, hlog⟩ := he
  cases h with
  | folder h =>
      obtain ⟨hensure, hreplays⟩ := hreplays.ensureDirectory h hlast
      exact ⟨_, .folder hensure, hreplays, hstate, hlog⟩
  | @log p a n tree log h =>
      obtain ⟨hopen, hpath⟩ := Archive.openLog_ok h
      obtain ⟨opened, hopen, hreplays⟩ := hreplays.openTruncated hopen hlast
      have hlog : s.archive.openLog e.tree a s.benchmark n = .ok (opened, log) := by
        dsimp only [Archive.openLog]
        rw [hopen, ← hpath]
      exact ⟨_, .log hlog, hreplays, hstate, rfl⟩
  | @trial p a n i left h hv hl =>
      obtain ⟨verdict, log, tree, state⟩ := left
      obtain rfl : verdict = _ := hv
      -- the same cue is played, to the same log
      rw [Runner.scripted_run] at h
      obtain ⟨hfailure, houtcome, rfl, handle, hwrite, rfl⟩ := Runner.play_eq_ok_iff.1 h
      obtain ⟨written, hwrite, hreplays⟩ := hreplays.writeAll hwrite
      have hplay : (Runner.scripted cues).run (s.trial recipe a n i) recipe.timeout e.log e.tree
          e.state = ⟨.ok (reply (.trial p a n i)).outcome, { d.log with handle }, written,
            d.state + 1⟩ := by
        rw [Runner.scripted_run, hstate, hlog]
        exact Runner.play_eq_ok_iff.2 ⟨hfailure, houtcome, rfl, handle, hwrite, rfl⟩
      exact ⟨_, .trial hplay rfl hl, hreplays, rfl, rfl⟩

/-- Steps that went well go well again, with the same replies. -/
theorem Taken.again (h : Taken s recipe (.scripted cues) reply d steps d')
    (hlast : d'.tree.Grows last) (he : Repeats last d e) :
    ∃ e', Taken s recipe (.scripted cues) reply e steps e' ∧ Repeats last d' e' := by
  induction h generalizing e with
  | nil => exact ⟨e, .nil, he⟩
  | cons h hrest ih =>
      obtain ⟨e₁, hstep, he₁⟩ := h.again (hrest.grows.trans hlast) he
      obtain ⟨e₂, hsteps, he₂⟩ := ih hlast he₁
      exact ⟨e₂, .cons hstep hsteps, he₂⟩

/-! ## The second run -/

/-- A sweep that goes through can be run again on the tree that it left, with the same script
from the same place on: it goes through, makes the same calls and tells of the same trials, and
leaves the very same tree.  Allocators may be listed twice and may be any text, so that several
of them may stand for the same folder, and there may be links in the tree. -/
theorem run_again (s : Sweep) (recipe : Recipe) (cues : List Runner.Cue) (tree : Tree)
    (count : Nat) (tally : Tally)
    (h : (s.run recipe (.scripted cues) tree count).verdict = .ok tally) :
    let first := s.run recipe (.scripted cues) tree count
    s.run recipe (.scripted cues) first.tree count = first ∧
      s.observations recipe (.scripted cues) first.tree count =
        s.observations recipe (.scripted cues) tree count := by
  obtain ⟨hi, made, hopen, reply, d, ht⟩ := taken_of_run_ok h
  have hfirst := run_of_taken hi hopen ht
  have hensure := (archive_open_ok hopen).1
  -- the archive and its folders are there, and so are the logs, with the last contents
  obtain ⟨hensure', hreplays⟩ := Tree.Replays.start.ensureDirectory hensure ht.grows
  have hopen' : Archive.open? d.tree s.directory = .ok (d.tree, s.archive) := by
    rw [Archive.open?_eq, hensure']
    rfl
  have hstart : Repeats d.tree (.start made count) (.start d.tree count) := ⟨hreplays, rfl, rfl⟩
  obtain ⟨e, he, hlast, hstate, -⟩ := ht.again (.refl d.tree) hstart
  have hagain := run_of_taken hi hopen' he
  intro first
  have htree : first.tree = d.tree := congrArg Ran.tree hfirst
  refine ⟨?_, ?_⟩
  · rw [htree, hagain, hlast.eq_last, hstate]
    exact hfirst.symm
  · rw [htree, observations_of_taken hi hopen' he, observations_of_taken hi hopen ht]

/-- A sweep over four names of one folder. -/
def aliasSweep : Sweep := ⟨⟨"."⟩, "larson", ["libc", "alias", "./libc", "libc/../libc"], 1, 2⟩

/-- A tree with a link to this folder, which is not there. -/
def aliasTree : Tree :=
  (Tree.bare.set ["Results", "bench", "tmp"] (.directory 0o700)).set
    ["alias", "Results", "bench", "tmp"] (.link "libc")

/-- The trials of this sweep. -/
def aliasCues : List Runner.Cue :=
  [⟨["x"], none, .exited 2⟩, ⟨["y"], none, .success⟩, ⟨["z"], none, .timedOut⟩]

/-- Such a sweep is run twice in such a tree. -/
theorem run_again_aliases :
    let first := aliasSweep.run ⟨10, []⟩ (.scripted aliasCues) aliasTree 0
    first.verdict = .ok ⟨aliasSweep.logPaths, 5⟩ ∧
      first.tree.node? ["larson-1", "libc", "Results", "bench", "tmp"] =
        some (.file 0 0o755 (.bytes (utf8 "x\nDied. 2\ny\n"))) ∧
      aliasSweep.run ⟨10, []⟩ (.scripted aliasCues) first.tree 0 = first := by
  intro first
  have hfirst : first.verdict = .ok ⟨aliasSweep.logPaths, 5⟩ := by decide +kernel
  have hlog : first.tree.node? ["larson-1", "libc", "Results", "bench", "tmp"] =
      some (.file 0 0o755 (.bytes (utf8 "x\nDied. 2\ny\n"))) := by decide +kernel
  obtain ⟨hagain, -⟩ := run_again aliasSweep ⟨10, []⟩ aliasCues aliasTree 0 _ hfirst
  exact ⟨hfirst, hlog, hagain⟩

end BenchSweep.Sweep
