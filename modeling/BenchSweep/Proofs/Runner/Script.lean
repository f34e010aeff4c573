import BenchSweep.Proofs.Files.Replay
import BenchSweep.Runner

/-!
# What scripts write

A script touches files only through the log that it is given.

* `Runner.cueAt` : the prepared trial that a call plays.
* `Cue.spoken`, `Cue.written` : what a prepared trial puts in its log, without and with the
  annotation of its outcome.
* `Runner.play_writes` : a prepared trial appends this to its log, and nothing else happens.
* `Runner.play_eq_ok_iff` : a prepared trial that goes well is a number of writes.
-/

namespace BenchSweep.Runner

/-- The bytes of a line. -/
def lineBytes (line : String) : List UInt8 := utf8 (line ++ "\n")

/-- The lines that a prepared trial writes itself. -/
def Cue.spoken (cue : Cue) : List UInt8 := cue.lines.flatMap lineBytes

/-- All that a prepared trial leaves in its log: its lines, and the annotation of its
outcome. -/
def Cue.written (cue : Cue) : List UInt8 :=
  cue.spoken ++ (cue.outcome.annotation.map lineBytes).getD []

/-- The prepared trial that is played in a call; without any, nothing is written and all goes
well. -/
def cueAt (cues : List Cue) (count : Nat) : Cue :=
  cues[count % cues.length]?.getD ⟨[], none, .success⟩

theorem scripted_run (cues : List Cue) (trial : Trial) (timeout : Timeout) (log : ResultLog)
    (t : Tree) (count : Nat) :
    (scripted cues).run trial timeout log t count = play (cueAt cues count) log t (count + 1) := by
  simp only [scripted, cueAt]
  cases cues[count % cues.length]? <;> rfl

section

variable {σ : Type} {t t' : Tree} {loc : Location} {was : Option Node} {content : List UInt8}
  {log log' : ResultLog} {line : String}

theorem writeLine_ok (hlog : t.LogOpen loc was content log.handle) (hloc : loc ≠ [])
    (h : log.writeLine t line = .ok (t', log')) :
    t.SameBut t' loc ∧ t'.LogOpen loc was (content ++ lineBytes line) log'.handle := by
  unfold ResultLog.writeLine ResultLog.write at h
  split at h
  · cases h
    exact hlog.write hloc ‹_›
  · cases h

theorem logged_of_writeLine_error {f : Failure} (hlog : t.LogOpen loc was content log.handle)
    (h : log.writeLine t line = .error f) (content' : List UInt8) :
    Logged content' was (t.node? loc) := by
  unfold ResultLog.writeLine ResultLog.write at h
  split at h
  · cases h
  · exact hlog.logged_of_write_error ‹_› content'

/-- Lines are appended to a log, or it is a device. -/
theorem writeLines_writes (hlog : t.LogOpen loc was content log.handle) (hloc : loc ≠ [])
    (lines : List String) :
    let (verdict, log', t') := writeLines log t lines
    t.SameBut t' loc ∧
      match verdict with
      | .ok _ => t'.LogOpen loc was (content ++ lines.flatMap lineBytes) log'.handle
      | .error _ => ∀ content', Logged content' was (t'.node? loc) := by
  induction lines generalizing t log content with
  | nil =>
      refine ⟨Tree.SameBut.refl t loc, ?_⟩
      simpa using hlog
  | cons line rest ih =>
      unfold writeLines
      cases hline : log.writeLine t line with
      | error f => exact ⟨Tree.SameBut.refl t loc, logged_of_writeLine_error hlog hline⟩
      | ok written =>
          obtain ⟨hsame, hopen⟩ := writeLine_ok hlog hloc hline
          obtain ⟨hrest, hverdict⟩ := ih hopen
          refine ⟨hsame.trans hrest, ?_⟩
          rw [List.flatMap_cons, ← List.append_assoc]
          exact hverdict

/-- The end of a trial leaves its annotation. -/
theorem conclude_writes (hlog : t.LogOpen loc was content log.handle) (hloc : loc ≠ [])
    (outcome : Outcome) (state : σ) :
    let left := conclude outcome log t state
    t.SameBut left.tree loc ∧ left.state = state ∧
      match left.verdict with
      | .ok _ => left.tree.LogOpen loc was
          (content ++ (outcome.annotation.map lineBytes).getD []) left.log.handle
      | .error _ => ∀ content', Logged content' was (left.tree.node? loc) := by
  unfold conclude
  cases outcome.annotation with
  | none =>
      refine ⟨Tree.SameBut.refl t loc, rfl, ?_⟩
      simpa using hlog
  | some line =>
      dsimp only
      cases hline : log.writeLine t line with
      | error f => exact ⟨Tree.SameBut.refl t loc, rfl, logged_of_writeLine_error hlog hline⟩
      | ok written =>
          obtain ⟨hsame, hopen⟩ := writeLine_ok hlog hloc hline
          exact ⟨hsame, rfl, hopen⟩

/-- A prepared trial appends to its log: all of its output if it goes well, and its lines if
it does not. -/
theorem play_writes (hlog : t.LogOpen loc was content log.handle) (hloc : loc ≠ []) (cue : Cue)
    (state : σ) :
    let left := play cue log t state
    t.SameBut left.tree loc ∧ left.state = state ∧
      match left.verdict with
      | .ok _ => left.tree.LogOpen loc was (content ++ cue.written) left.log.handle
      | .error _ => Logged (content ++ cue.spoken) was (left.tree.node? loc) := by
  have hlines := writeLines_writes hlog hloc cue.lines
  unfold play
  generalize writeLines log t cue.lines = written at hlines ⊢
  obtain ⟨_ | _, log', t'⟩ := written
  · -- a line that is refused was for a device
    exact ⟨hlines.1, rfl, hlines.2 _⟩
  · obtain ⟨hsame, hopen⟩ := hlines
    dsimp only
    cases cue.failure with
    | some text => exact ⟨hsame, rfl, hopen.node⟩
    | none =>
        obtain ⟨hlast, hstate, hverdict⟩ := conclude_writes hopen hloc cue.outcome state
        refine ⟨hsame.trans hlast, hstate, ?_⟩
        dsimp only
        cases hended : (conclude cue.outcome log' t' state).verdict with
        | ok outcome =>
            rw [hended] at hverdict
            rw [Cue.written, ← List.append_assoc]
            exact hverdict
        | error f =>
            rw [hended] at hverdict
            exact hverdict _

end

/-! ## Scripts as writes -/

section

variable {σ : Type} {t t' : Tree} {log log' : ResultLog} {cue : Cue} {outcome : Outcome}
  {state state' : σ}

theorem writeLines_append (front rest : List String) :
    writeLines log t (front ++ rest) =
      match writeLines log t front with
      | (.ok (), log, t) => writeLines log t rest
      | failed => failed := by
  induction front generalizing log t with
  | nil => rfl
  | cons line front ih =>
      rw [List.cons_append, writeLines, writeLines]
      cases log.writeLine t line with
      | ok world => exact ih
      | error f => rfl

/-- The end of a trial is a line at most. -/
theorem conclude_eq (outcome : Outcome) (log : ResultLog) (t : Tree) (state : σ) :
    conclude outcome log t state =
      match writeLines log t outcome.annotation.toList with
      | (verdict, log, t) => ⟨verdict.map fun _ => outcome, log, t, state⟩ := by
  unfold conclude
  cases outcome.annotation with
  | none => rfl
  | some line =>
      dsimp only [Option.toList_some, writeLines]
      cases log.writeLine t line <;> rfl

/-- A prepared trial without a failure of its own is a number of lines. -/
theorem play_eq (h : cue.failure = none) :
    play cue log t state =
      match writeLines log t (cue.lines ++ cue.outcome.annotation.toList) with
      | (verdict, log, t) => ⟨verdict.map fun _ => cue.outcome, log, t, state⟩ := by
  rw [writeLines_append, play]
  rcases writeLines log t cue.lines with ⟨_ | _, log', t'⟩
  · rfl
  · rw [h]
    exact conclude_eq cue.outcome log' t' state

theorem writeLine_eq_ok_iff {line : String} :
    log.writeLine t line = .ok (t', log') ↔
      ∃ handle, t.write log.handle (lineBytes line) = .ok (t', handle) ∧
        log' = { log with handle } := by
  unfold ResultLog.writeLine ResultLog.write lineBytes
  cases t.write log.handle (utf8 (line ++ "\n")) with
  | error fault => simp
  | ok world =>
      obtain ⟨written, handle⟩ := world
      constructor
      · intro h
        cases h
        exact ⟨handle, rfl, rfl⟩
      · rintro ⟨handle', h, rfl⟩
        cases h
        rfl

/-- Lines that are all written are a number of writes. -/
theorem writeLines_eq_ok_iff {lines : List String} :
    writeLines log t lines = (.ok (), log', t') ↔
      ∃ handle, t.writeAll log.handle (lines.map lineBytes) = .ok (t', handle) ∧
        log' = { log with handle } := by
  induction lines generalizing t log with
  | nil =>
      constructor
      · intro h
        cases h
        exact ⟨_, rfl, rfl⟩
      · rintro ⟨handle, h, rfl⟩
        cases h
        rfl
  | cons line rest ih =>
      rw [List.map_cons, writeLines]
      constructor
      · intro h
        cases hline : log.writeLine t line with
        | error f =>
            rw [hline] at h
            cases h
        | ok world =>
            rw [hline] at h
            obtain ⟨handle₁, hfirst, hlog⟩ := writeLine_eq_ok_iff.1 hline
            obtain ⟨handle₂, hrest, rfl⟩ := ih.1 h
            rw [hlog] at hrest ⊢
            exact ⟨handle₂, Tree.writeAll_cons_eq_ok_iff.2 ⟨_, handle₁, hfirst, hrest⟩, rfl⟩
      · rintro ⟨handle₂, h, rfl⟩
        obtain ⟨t₁, handle₁, hfirst, hrest⟩ := Tree.writeAll_cons_eq_ok_iff.1 h
        rw [writeLine_eq_ok_iff.2 ⟨handle₁, hfirst, rfl⟩]
        exact ih.2 ⟨handle₂, hrest, rfl⟩

/-- What a prepared trial writes, one line after the other. -/
def Cue.chunks (cue : Cue) : List (List UInt8) :=
  (cue.lines ++ cue.outcome.annotation.toList).map lineBytes

/-- A prepared trial that goes well is a number of writes. -/
theorem play_eq_ok_iff :
    play cue log t state = ⟨.ok outcome, log', t', state'⟩ ↔
      cue.failure = none ∧ outcome = cue.outcome ∧ state' = state ∧
        ∃ handle, t.writeAll log.handle cue.chunks = .ok (t', handle) ∧
          log' = { log with handle } := by
  by_cases hfailure : cue.failure = none
  · rw [play_eq hfailure, Cue.chunks, ← writeLines_eq_ok_iff]
    rcases writeLines log t _ with ⟨_ | _, written, tree⟩
    · simp [Except.map]
    · simp [Except.map, hfailure]
      grind
  · -- a failure is reported behind the lines, if not before
    obtain ⟨text, htext⟩ := Option.ne_none_iff_exists'.1 hfailure
    rw [play]
    rcases writeLines log t cue.lines with ⟨_ | _, written, tree⟩
    · simp [hfailure]
    · simp [htext]

end

end BenchSweep.Runner
