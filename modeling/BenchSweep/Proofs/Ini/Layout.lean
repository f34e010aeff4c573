import Mathlib.Algebra.GroupWithZero.Nat
import BenchSweep.Proofs.Ini.Verdict
import BenchSweep.Proofs.Text.Lines
import BenchSweep.Proofs.Text.Trim

/-!
# The layout of a sectioned text

What a line says depends on no blanks at its end and on no ignored line before it.

* `Ini.Relaid` : one text is another one in a new layout.
* `Ini.Relined` : the same for the lines of two texts (`Ini.Relaid.relined`).
* `Ini.Relined.steps` : both are read alike, except that lines are counted anew.
* `Recipe.parse_relaid` : a new layout changes no recipe, and of a failure only the number of the
  line at fault.
-/

namespace BenchSweep.Ini

open Text

/-! ## Layouts -/

/-- What stands at the end of a line. -/
inductive Ending
  | lf
  | crlf
  | nothing
  deriving DecidableEq, Repr

/-- The characters at the end of a line. -/
def Ending.chars : Ending → List Char
  | lf => ['\n']
  | crlf => ['\r', '\n']
  | nothing => []

/-- Can the line, with this end, stand in front of the text?  The last line of a text needs no end,
unless it is empty. -/
structure Ending.Closes (ending : Ending) (line text : List Char) : Prop where
  newline_not_mem : '\n' ∉ line
  last : ending = .nothing → line ≠ [] ∧ text = []

/-- Is the line blank, or a comment, which may be indented? -/
def SaysNothing (line : List Char) : Prop :=
  ∃ indent rest, line = indent ++ rest ∧ (∀ c ∈ indent, isBlank c = true) ∧
    (rest = [] ∨ rest.head? = some '#' ∨ rest.head? = some ';')

/-- Is the second text the first one in another layout?  Lines that say nothing are put in, lines
get blanks at their ends, and the ends of lines change.  The numbers say how many lines are put in
in front of each line of the first text, and how many behind the last one. -/
inductive Relaid : (text text' : List Char) → (gaps : List Nat) → Prop
  | nil : Relaid [] [] [0]
  | putIn {line text text' k gaps} {ending : Ending} (hline : SaysNothing line)
      (hcloses : ending.Closes line text') (h : Relaid text text' (k :: gaps)) :
      Relaid text (line ++ ending.chars ++ text') ((k + 1) :: gaps)
  | keep {line blanks text text' gaps} {ending ending' : Ending}
      (hblanks : ∀ c ∈ blanks, isBlank c = true) (hcloses : ending.Closes line text)
      (hcloses' : ending'.Closes (line ++ blanks) text') (h : Relaid text text' gaps) :
      Relaid (line ++ ending.chars ++ text) (line ++ blanks ++ ending'.chars ++ text') (0 :: gaps)

/-- Are the second lines the first ones with ignored lines put in?  The numbers are those of
`Relaid`. -/
inductive Relined : (ls ls' : List (List Char)) → (gaps : List Nat) → Prop
  | nil : Relined [] [] [0]
  | putIn {raw ls ls' k gaps} (hraw : Line.ofChars raw = .ignored)
      (h : Relined ls ls' (k :: gaps)) : Relined ls (raw :: ls') ((k + 1) :: gaps)
  | keep {raw raw' ls ls' gaps} (hraw : Line.ofChars raw' = Line.ofChars raw)
      (h : Relined ls ls' gaps) : Relined (raw :: ls) (raw' :: ls') (0 :: gaps)

variable {line blanks text text' raw raw' : List Char} {ls ls' : List (List Char)}
  {gaps : List Nat} {ending : Ending} {r : Reading}

/-! ## Lines of a text in a new layout -/

/-- Blanks at the end of a line say nothing. -/
theorem ofChars_append (h : ∀ c ∈ blanks, isBlank c = true) :
    Line.ofChars (line ++ blanks) = Line.ofChars line := by
  unfold Line.ofChars
  rw [trim_append_right h]
  split
  · rfl
  · next hidle =>
      -- a line that says something has a first character
      have hne : line ≠ [] := by
        rintro rfl
        exact hidle rfl
      rw [isIndented, isIndented, List.head?_append, List.head?_eq_some_head hne, Option.some_or]

theorem ofChars_of_saysNothing (h : SaysNothing line) : Line.ofChars line = .ignored := by
  obtain ⟨indent, rest, rfl, hindent, hrest⟩ := h
  rw [Line.ofChars, trim_append_left hindent, if_pos]
  rw [isIdle_iff]
  rcases hrest with rfl | hmark | hmark
  · exact Or.inl rfl
  · exact Or.inr (Or.inl (head?_trim_of_head hmark (by decide)))
  · exact Or.inr (Or.inr (head?_trim_of_head hmark (by decide)))

/-- A line with its end in front of a text is the first line of the text, but for a CR in front of
an LF. -/
theorem Ending.Closes.lines_eq (h : ending.Closes line text) :
    ∃ raw, lines (line ++ ending.chars ++ text) = raw :: lines text ∧
      Line.ofChars raw = Line.ofChars line := by
  obtain ⟨hlf, hlast⟩ := h
  cases ending with
  | lf =>
      by_cases hcr : line.getLast? = some '\r'
      · -- the CR and the LF are one end
        obtain ⟨front, rfl⟩ := List.getLast?_eq_some_iff.1 hcr
        have hfront : '\n' ∉ front := fun h => hlf (List.mem_append_left _ h)
        refine ⟨front, ?_, (ofChars_append (List.all_eq_true.1 rfl)).symm⟩
        rw [← lines_append_crlf hfront text]
        simp [chars]
      · refine ⟨line, ?_, rfl⟩
        rw [← lines_append_newline hlf hcr text]
        simp [chars]
  | crlf =>
      refine ⟨line, ?_, rfl⟩
      rw [← lines_append_crlf hlf text]
      simp [chars]
  | nothing =>
      obtain ⟨hne, rfl⟩ := hlast rfl
      refine ⟨line, ?_, rfl⟩
      rw [lines_nil, ← lines_of_not_mem hlf hne]
      simp [chars]

/-- Every text is in the layout that it has. -/
theorem exists_relaid_self (text : List Char) : ∃ gaps, Relaid text text gaps := by
  generalize hlength : text.length = length
  induction length using Nat.strongRecOn generalizing text with
  | ind length ih =>
      have hnone : ∀ c ∈ ([] : List Char), isBlank c = true := by simp
      by_cases hlf : '\n' ∈ text
      · -- the first line, and what is behind it
        obtain ⟨line, rest, rfl, hline⟩ := List.eq_append_cons_of_mem hlf
        obtain ⟨gaps, hrest⟩ := ih rest.length (by simp [← hlength]; omega) rest rfl
        have hcloses : Ending.lf.Closes line rest := ⟨hline, nofun⟩
        have hkept := Relaid.keep hnone hcloses (by simpa using hcloses) hrest
        exact ⟨0 :: gaps, by simpa [Ending.chars] using hkept⟩
      · by_cases hne : text = []
        · exact ⟨[0], hne ▸ .nil⟩
        · have hcloses : Ending.nothing.Closes text [] := ⟨hlf, fun _ => ⟨hne, rfl⟩⟩
          have hkept := Relaid.keep hnone hcloses (by simpa using hcloses) .nil
          exact ⟨[0, 0], by simpa [Ending.chars] using hkept⟩

theorem Relaid.relined (h : Relaid text text' gaps) : Relined (lines text) (lines text') gaps := by
  induction h with
  | nil => exact .nil
  | putIn hline hcloses _ ih =>
      obtain ⟨raw, hlines, hraw⟩ := hcloses.lines_eq
      rw [hlines]
      exact .putIn (hraw.trans (ofChars_of_saysNothing hline)) ih
  | keep hblanks hcloses hcloses' _ ih =>
      obtain ⟨raw, hlines, hraw⟩ := hcloses.lines_eq
      obtain ⟨raw', hlines', hraw'⟩ := hcloses'.lines_eq
      rw [hlines, hlines']
      exact .keep (hraw'.trans ((ofChars_append hblanks).trans hraw.symm)) ih

/-! ## Reading -/

/-- What a line does depends on what it says on its own. -/
theorem Reading.step_congr (h : Line.ofChars raw' = Line.ofChars raw) :
    r.step raw' = r.step raw := by
  rw [step, h, step]

theorem Reading.step_of_ignored (h : Line.ofChars raw = .ignored) : r.step raw = .ok r := by
  rw [step, h]

/-- Lines with others put in are read to the same end, or refused for the same fault at the line
that was put further down. -/
theorem Relined.steps (h : Relined ls ls' gaps) (r : Reading) (number number' : Nat) :
    (∃ last, r.steps number ls = .ok last ∧ r.steps number' ls' = .ok last) ∨
      ∃ i fault, r.steps number ls = .error (number + i, fault) ∧
        r.steps number' ls' = .error (number' + i + (gaps.take (i + 1)).sum, fault) := by
  induction h generalizing r number number' with
  | nil => exact Or.inl ⟨r, rfl, rfl⟩
  | putIn hraw _ ih =>
      have hstep := Reading.step_of_ignored (r := r) hraw
      rcases ih r number (number' + 1) with ⟨last, hsteps, hsteps'⟩ | ⟨i, fault, hsteps, hsteps'⟩
      · left
        refine ⟨last, hsteps, ?_⟩
        rw [Reading.steps, hstep]
        exact hsteps'
      · right
        refine ⟨i, fault, hsteps, ?_⟩
        rw [Reading.steps, hstep]
        show r.steps (number' + 1) _ = _
        rw [hsteps', List.take_succ_cons, List.take_succ_cons, List.sum_cons, List.sum_cons]
        congr 2
        omega
  | @keep raw raw' ls ls' gaps hraw _ ih =>
      rw [Reading.steps, Reading.steps, Reading.step_congr hraw]
      cases hstep : r.step raw with
      | error fault =>
          right
          exact ⟨0, fault, rfl, by simp⟩
      | ok next =>
          rcases ih next (number + 1) (number' + 1) with ⟨last, hsteps, hsteps'⟩ |
            ⟨i, fault, hsteps, hsteps'⟩
          · left
            exact ⟨last, hsteps, hsteps'⟩
          · right
            refine ⟨i + 1, fault, ?_, ?_⟩
            · show next.steps (number + 1) ls = _
              rw [hsteps, Nat.add_assoc, Nat.add_comm 1]
            · show next.steps (number' + 1) ls' = _
              rw [hsteps', List.take_succ_cons, List.sum_cons]
              congr 2
              omega

/-- The number of a line in a new layout: that of the line, and the lines put in in front of it. -/
def numberIn (gaps : List Nat) (n : Nat) : Nat := n + (gaps.take n).sum

/-- A new layout changes nothing that is read, and of a fault only the number of its line. -/
theorem Relaid.read_eq (h : Relaid text text' gaps) :
    read text' = (read text).mapError fun (n, fault) => (numberIn gaps n, fault) := by
  rw [read, read]
  rcases h.relined.steps .initial 1 1 with ⟨last, hsteps, hsteps'⟩ | ⟨i, fault, hsteps, hsteps'⟩
  · rw [hsteps, hsteps']
    rfl
  · rw [hsteps, hsteps', Nat.add_comm 1 i]
    rfl

end BenchSweep.Ini

namespace BenchSweep

open Ini

/-- A failure in a new layout of the text. -/
def Failure.relaid (gaps : List Nat) : Failure → Failure
  | .configMalformed path n fault => .configMalformed path (numberIn gaps n) fault
  | failure => failure

namespace Recipe

/-- The failures of a text that is read name no line. -/
theorem mapError_ofSections (path : Path) (sections : Sections) (gaps : List Nat) :
    (ofSections path sections).mapError (Failure.relaid gaps) = ofSections path sections := by
  cases h : ofSections path sections with
  | ok recipe => rfl
  | error failure =>
      cases failure with
      | configMalformed other n fault =>
          exact absurd h (ofSections_ne_malformed path other sections n fault)
      | _ => rfl

/-- A new layout of a text gives the same recipe, or the same failure.  If that is a line at fault,
its number grows by the lines put in in front of it. -/
theorem parse_relaid (path : Path) {text text' : String} {gaps : List Nat}
    (h : Relaid text.toList text'.toList gaps) :
    parse path text' = (parse path text).mapError (Failure.relaid gaps) := by
  rw [parse, parse, h.read_eq]
  cases read text.toList with
  | ok sections => exact (mapError_ofSections path sections gaps).symm
  | error found => rfl

/-- A line without a delimiter behind a value in several lines. -/
def unlaid : String := "[DEFAULT]\nargs = 1\n  2\nmaxtime\n"

/-- The same text with blank lines and comments, and with other ends of lines. -/
def laidOut : String := "\n[DEFAULT] \r\nargs = 1\n ; and\n#\n  2\t\nmaxtime"

theorem parse_relaid_laidOut :
    Relaid unlaid.toList laidOut.toList [1, 0, 2, 0, 0] ∧
      parse ⟨"config"⟩ laidOut =
        .error (.configMalformed ⟨"config"⟩ 7 .missingDelimiter) := by
  have hunlaid : unlaid.toList = "[DEFAULT]".toList ++ Ending.lf.chars ++
      ("args = 1".toList ++ Ending.lf.chars ++ ("  2".toList ++ Ending.lf.chars ++
        ("maxtime".toList ++ Ending.lf.chars ++ []))) := by
    decide
  have hlaidOut : laidOut.toList = [] ++ Ending.lf.chars ++
      ("[DEFAULT]".toList ++ [' '] ++ Ending.crlf.chars ++
        ("args = 1".toList ++ [] ++ Ending.lf.chars ++ (" ; and".toList ++ Ending.lf.chars ++
          ("#".toList ++ Ending.lf.chars ++ ("  2".toList ++ ['\t'] ++ Ending.lf.chars ++
            ("maxtime".toList ++ [] ++ Ending.nothing.chars ++ [])))))) := by
    decide
  have hrelaid : Relaid unlaid.toList laidOut.toList [1, 0, 2, 0, 0] := by
    rw [hunlaid, hlaidOut]
    refine .putIn ⟨[], [], rfl, by simp, Or.inl rfl⟩ ⟨by decide, by simp⟩ ?_
    refine .keep (List.all_eq_true.1 rfl) ⟨by decide, by simp⟩ ⟨by decide, by simp⟩ ?_
    refine .keep (by simp) ⟨by decide, by simp⟩ ⟨by decide, by simp⟩ ?_
    refine .putIn ⟨[' '], "; and".toList, rfl, List.all_eq_true.1 rfl, by decide⟩
      ⟨by decide, by simp⟩ ?_
    refine .putIn ⟨[], ['#'], by decide, by simp, by decide⟩ ⟨by decide, by simp⟩ ?_
    refine .keep (List.all_eq_true.1 rfl) ⟨by decide, by simp⟩ ⟨by decide, by simp⟩ ?_
    exact .keep (by simp) ⟨by decide, by simp⟩ ⟨by decide, by decide⟩ .nil
  refine ⟨hrelaid, ?_⟩
  have hparse : parse ⟨"config"⟩ unlaid =
      .error (.configMalformed ⟨"config"⟩ 4 .missingDelimiter) := by
    decide +kernel
  rw [parse_relaid ⟨"config"⟩ hrelaid, hparse]
  rfl

end Recipe

end BenchSweep
