import BenchSweep.Proofs.Runner.Uses
import BenchSweep.Proofs.Runner.Wording

/-!
# Annotations as lines

The annotation of a failure goes behind all that is in a log, also behind a line that was not
finished.

* `Runner.LastLine` : the last line of what is in a log, and `Runner.unfinished` : what stands
  there behind its last newline.
* `Runner.newline_not_mem_annotation` : an annotation is one line.
* `Runner.texts_determine_outcome` : the texts of an outcome, and the line it leaves, tell it from
  all others.
* `Runner.lastLine_of_failure` : the last line behind a failed trial is what was not finished before
  it with the annotation behind that, so that it is the annotation if everything was finished.
* `Runner.annotation_behind_unfinished` : a program that does not finish its line.
-/

namespace BenchSweep.Runner

/-! ## Lines of a log -/

/-- The byte that ends a line. -/
def newline : UInt8 := 0x0A

/-- Is nothing, or a finished line, at the end of what is in a log? -/
def Finished (content : List UInt8) : Prop := content = [] ∨ content.getLast? = some newline

/-- What stands behind the last newline. -/
def unfinished (content : List UInt8) : List UInt8 :=
  (content.reverse.takeWhile (· ≠ newline)).reverse

/-- Are these bytes the last line of what is in a log, which a newline ends? -/
def LastLine (content line : List UInt8) : Prop :=
  ∃ front, content = front ++ line ++ [newline] ∧ Finished front ∧ newline ∉ line

variable {content front line line' : List UInt8}

theorem newline_not_mem_unfinished (content : List UInt8) : newline ∉ unfinished content := by
  intro hmem
  have hne := List.all_eq_true.1 List.all_takeWhile _ (List.mem_reverse.1 hmem)
  simp at hne

/-- What is not finished stands behind something finished. -/
theorem exists_finished_append (content : List UInt8) :
    ∃ front, content = front ++ unfinished content ∧ Finished front := by
  refine ⟨(content.reverse.dropWhile (· ≠ newline)).reverse, ?_, ?_⟩
  · rw [unfinished, ← List.reverse_append, List.takeWhile_append_dropWhile, List.reverse_reverse]
  · have hhead := List.head?_dropWhile_not (fun byte => decide (byte ≠ newline)) content.reverse
    rw [Finished, List.reverse_eq_nil_iff, List.getLast?_reverse]
    cases hrest : content.reverse.dropWhile (· ≠ newline) with
    | nil => exact Or.inl rfl
    | cons byte rest =>
        rw [hrest] at hhead
        exact Or.inr (by simpa using hhead)

/-- There is one last line. -/
theorem LastLine.unique (h : LastLine content line) (h' : LastLine content line') :
    line = line' := by
  obtain ⟨front, rfl, hfront, hline⟩ := h
  obtain ⟨front', heq, hfront', hline'⟩ := h'
  have hends := List.append_cancel_right heq
  -- a longer front would end with a byte of the other line
  have hlonger {front more line line' : List UInt8} (hfinished : Finished (front ++ more))
      (hline : newline ∉ line) (hmore : line = more ++ line') : line = line' := by
    rcases List.eq_nil_or_concat more with rfl | ⟨more, last, rfl⟩
    · exact hmore
    · rw [Finished, List.concat_eq_append, ← List.append_assoc] at hfinished
      simp_all
  rcases List.append_eq_append_iff.1 hends with ⟨more, rfl, hmore⟩ | ⟨more, rfl, hmore⟩
  · exact hlonger hfront' hline hmore
  · exact (hlonger hfront hline' hmore).symm

/-! ## Annotations -/

theorem utf8_eq_flatMap (s : String) : utf8 s = s.toList.flatMap String.utf8EncodeChar := by
  rw [utf8, String.toUTF8_eq_toByteArray, ← String.utf8Encode_toList, List.utf8Encode]
  simp

/-- The byte of a newline is in the encoding of no other character. -/
theorem newline_not_mem_utf8EncodeChar {c : Char} (h : c ≠ '\n') :
    newline ∉ String.utf8EncodeChar c := by
  have hvalue : c.val.toNat ≠ 10 := fun heq => h (Char.toNat_inj.1 heq)
  have hbound := c.val.toNat_lt
  have hnewline : newline.toNat = 10 := rfl
  intro hmem
  dsimp only [String.utf8EncodeChar] at hmem
  split_ifs at hmem <;>
    simp only [List.mem_cons, List.not_mem_nil, or_false, ← UInt8.toNat_inj,
      UInt8.toNat_ofNat'] at hmem <;>
    omega

theorem utf8_injective : Function.Injective utf8 := by
  intro s t h
  rw [← Option.some_inj, ← ofUtf8?_utf8 s, ← ofUtf8?_utf8 t, h]

theorem newline_not_mem_utf8 {s : String} (h : '\n' ∉ s.toList) : newline ∉ utf8 s := by
  rw [utf8_eq_flatMap, List.mem_flatMap]
  rintro ⟨c, hc, hmem⟩
  exact newline_not_mem_utf8EncodeChar (fun heq => h (heq ▸ hc)) hmem

/-- An annotation is one line. -/
theorem newline_not_mem_annotation {outcome : Outcome} {note : String}
    (h : outcome.annotation = some note) : newline ∉ utf8 note :=
  newline_not_mem_utf8 fun hmem => absurd (Outcome.plain_annotation h _ hmem) (by decide)

/-- The texts of outcomes are unambiguous: no two outcomes have the same annotation, the same label,
or, being signals, the same name.  There is no annotation exactly for an outcome that is no failure,
and no annotation or label holds a line break or anything else but visible ASCII characters and
spaces.  So if the last line of what is in a log is the annotation of an outcome, it is that of no
other. -/
theorem texts_determine_outcome :
    (Function.Injective Outcome.annotation ∧ Function.Injective Outcome.label ∧
        Function.Injective signalName) ∧
      (∀ o : Outcome, (o.isFailure = false ↔ o.annotation = none) ∧
        (∀ note, o.annotation = some note → Plain note) ∧ Plain o.label) ∧
      ∀ (o o' : Outcome) note note', o.annotation = some note → o'.annotation = some note' →
        ∀ content, LastLine content (utf8 note) → LastLine content (utf8 note') → o = o' := by
  refine ⟨⟨Outcome.annotation_injective, Outcome.label_injective, signalName_injective⟩,
    fun o => ⟨?_, fun note => Outcome.plain_annotation, o.plain_label⟩, ?_⟩
  · rw [← Option.not_isSome_iff_eq_none, o.isSome_annotation, Bool.not_eq_true]
  · intro o o' note note' hnote hnote' content hline hline'
    obtain rfl : note = note' := utf8_injective (hline.unique hline')
    exact Outcome.annotation_injective (hnote.trans hnote'.symm)

/-! ## Failures -/

theorem lineBytes_eq (text : String) : lineBytes text = utf8 text ++ [newline] := by
  rw [lineBytes, utf8_append]
  rfl

/-- A line goes on with what was not finished before it. -/
theorem lastLine_append_lineBytes {note : String} (hnote : newline ∉ utf8 note)
    (content : List UInt8) :
    LastLine (content ++ lineBytes note) (unfinished content ++ utf8 note) := by
  obtain ⟨front, hfront, hfinished⟩ := exists_finished_append content
  refine ⟨front, ?_, hfinished, ?_⟩
  · rw [lineBytes_eq, ← List.append_assoc front, ← hfront, List.append_assoc]
  · exact List.mem_append.not.2 (not_or.2 ⟨newline_not_mem_unfinished content, hnote⟩)

/-- A line stands alone if everything before it was finished. -/
theorem lastLine_lineBytes_iff {note : String} (hnote : newline ∉ utf8 note) :
    LastLine (content ++ lineBytes note) (utf8 note) ↔ Finished content := by
  constructor
  · intro h
    have hline := (lastLine_append_lineBytes hnote content).unique h
    obtain ⟨front, hfront, hfinished⟩ := exists_finished_append content
    rw [List.append_left_eq_self.1 hline, List.append_nil] at hfront
    exact hfront ▸ hfinished
  · intro h
    exact ⟨content, by rw [lineBytes_eq, List.append_assoc], h, hnote⟩

/-- A trial that fails leaves its annotation behind all that is in its log: behind what the uses of
the log before it left, and behind what its program printed until it ended or was stopped.  So the
last line is the annotation exactly if all of that was finished, and else the annotation goes on
with the line that was not. -/
theorem lastLine_of_failure {host : Host} {a : Archive} {t opened left : Tree}
    {log last log' : ResultLog} {allocator benchmark : String} {threads stamp : Nat}
    {loc : Location} (hopen : a.openLog t allocator benchmark threads = .ok (opened, log))
    (hfile : log.handle.target = .file loc stamp) {uses : List ResultLog.Use}
    {made : List ResultLog.Used} (huses : useAll host log opened uses = (made, last, left))
    {trial : Trial} {timeout : Timeout} {used : ResultLog.Used}
    (hused : carryOut host last left (.trial trial timeout) = (used, log'))
    (halone : ∀ other ∈ made ++ [used], other.Spares host loc)
    {outcome : Outcome} {note : String} (hverdict : used.verdict = .ok (some outcome))
    (hnote : outcome.annotation = some note) :
    ∃ run mode content, used.started host trial = .ok run ∧ outcome = run.outcome timeout ∧
      used.after.stat? log.path = some (.file stamp mode (.bytes content)) ∧
      let before := made.flatMap (·.written host) ++ run.printed timeout
      content = before ++ lineBytes note ∧ LastLine content (unfinished before ++ utf8 note) ∧
        (LastLine content (utf8 note) ↔ Finished before) := by
  obtain ⟨⟨mode, hstart⟩, hnul⟩ := inUse_of_openLog hopen hfile
  have hall := hstart.useAll host uses
  rw [huses] at hall
  obtain ⟨-, -, hleft⟩ := hall fun other hmem => halone other (List.mem_append_left _ hmem)
  have hone := hleft.carryOut host (.trial trial timeout)
  have huse := use_carryOut host last left (.trial trial timeout)
  rw [hused] at hone huse
  obtain ⟨hright, hafter⟩ := hone (halone used (by simp))
  rw [ResultLog.Used.Right, huse] at hright
  rw [ResultLog.Used.written, huse] at hafter
  cases hstarted : used.started host trial with
  | error fault =>
      -- a program that cannot be started has no outcome
      simp only [hstarted] at hright
      cases hright.1.symm.trans hverdict
  | ok run =>
      simp only [hstarted] at hright hafter
      obtain rfl : run.outcome timeout = outcome :=
        Option.some.inj (Except.ok.inj (hright.symm.trans hverdict))
      have hline := newline_not_mem_annotation hnote
      rw [hnote, ← List.append_assoc] at hafter
      exact ⟨run, mode, _, rfl, rfl, hafter.stat? hnul, rfl,
        lastLine_append_lineBytes hline _, lastLine_lineBytes_iff hline⟩

/-- A program that does not finish its line before it fails. -/
def breaksOff : Program := [.print .out (utf8 "abc"), .exit 2]

theorem start_breaksOff (tree : Tree) (h : tree.runnable? ⟨"./p"⟩ = .ok (.program breaksOff)) :
    Machine.plain.host.start tree (folderTrial "p").program (folderTrial "p").args =
      .ok ⟨0, [⟨1, .print .out (utf8 "abc")⟩], 0, .exited 2⟩ :=
  start_folderTrial breaksOff h

/-- Behind a finished line the annotation follows the output of the program. -/
theorem lastLine_of_failure_breaksOff :
    let host := Machine.plain.host
    let (_, last, left) := useAll host folderLog (loggedTree breaksOff) [.line "x"]
    let used := (carryOut host last left (.trial (folderTrial "p") ⟨5000⟩)).1
    used.verdict = .ok (some (.exited 2)) ∧
      ∃ mode content, used.after.stat? folderLog.path =
          some (.file 1 mode (.bytes content)) ∧
        LastLine content (utf8 "abcDied. 2") := by
  intro host
  let world := useAll host folderLog (loggedTree breaksOff) [.line "x"]
  let used := carryOut host world.2.1 world.2.2 (.trial (folderTrial "p") ⟨5000⟩)
  have hstart := start_breaksOff (world.2.2.hold world.2.1.handle) rfl
  have hverdict : used.1.verdict = .ok (some (.exited 2)) := by
    dsimp only [used, carryOut]
    rw [processes_run_of_ok hstart]
    decide +kernel
  have halone : ∀ other ∈ world.1 ++ [used.1],
      other.Spares host ["b-1", "libc", "Results", "bench", "tmp"] := by
    refine List.forall_mem_cons.2 ⟨?_, List.forall_mem_singleton.2 ?_⟩
    · rintro trial timeout run ⟨⟩
    · rintro trial timeout run ⟨⟩ hrun
      cases hstart.symm.trans hrun
      exact ⟨⟨rfl, id⟩, trivial⟩
  obtain ⟨run, mode, content, hrun, -, hfile, -, hline, -⟩ :=
    lastLine_of_failure (openLog_folderTree breaksOff) rfl rfl rfl halone hverdict rfl
  cases hstart.symm.trans hrun
  refine ⟨hverdict, mode, content, hfile, ?_⟩
  have hbytes : unfinished (lineBytes "x" ++
      Run.printed ⟨0, [⟨1, .print .out (utf8 "abc")⟩], 0, .exited 2⟩ ⟨5000⟩) ++
      utf8 "Died. 2" = utf8 "abcDied. 2" := by decide +kernel
  exact hbytes ▸ hline

/-- Behind output that a program did not finish, its annotation is no line. -/
theorem annotation_behind_unfinished :
    let host := Machine.plain.host
    (Archive.ofDirectory ⟨"."⟩).openLog (folderTree breaksOff) "libc" "b" 1 =
        .ok (loggedTree breaksOff, folderLog) ∧
      ∃ used, (useAll host folderLog (loggedTree breaksOff)
          [.trial (folderTrial "p") ⟨5000⟩]).1 = [used] ∧
        used.verdict = .ok (some (.exited 2)) ∧
        (∃ mode, used.after.stat? folderLog.path =
          some (.file 1 mode (.bytes (utf8 "abcDied. 2\n")))) ∧
        ¬ LastLine (utf8 "abcDied. 2\n") (utf8 "Died. 2") := by
  intro host
  have hstart := start_breaksOff ((loggedTree breaksOff).hold folderLog.handle) rfl
  refine ⟨openLog_folderTree breaksOff, _, rfl, ?_, ⟨0o755, ?_⟩, fun hline => ?_⟩
  · dsimp only
    rw [processes_run_of_ok hstart]
    decide +kernel
  · dsimp only
    rw [processes_run_of_ok hstart]
    decide +kernel
  · have hjoined : LastLine (utf8 "abcDied. 2\n") (utf8 "abcDied. 2") :=
      ⟨[], by decide +kernel, Or.inl rfl, by decide +kernel⟩
    exact absurd (hline.unique hjoined) (by decide +kernel)

end BenchSweep.Runner
