import BenchSweep.Proofs.Ini.Values
import BenchSweep.Proofs.Text.Numeral
import BenchSweep.Proofs.Text.Trim

/-!
# The time limit of a recipe

* `Ini.newline_mem_trim_valueOf` : a value that does not start in a later line, but goes on in one,
  is not in one piece.
* `Recipe.timeLimit?_eq_some_iff` : the values that are time limits.
* `Recipe.parse_timeLimit` : which time limit a text gives, and which failure it is without one.
-/

namespace BenchSweep.Ini

open Text

variable {before rest : List Clause} {raws : List (List Char)} {name left right body : List Char}

/-- A line that goes on with a value is trimmed, and it is not blank. -/
theorem isTrimmed_of_continuation (h : .continuation body ∈ clauses raws) :
    IsTrimmed body ∧ body ≠ [] := by
  obtain ⟨i, hi⟩ := List.getElem?_of_mem h
  rw [getElem?_clauses] at hi
  obtain ⟨raw, -, hraw⟩ := Option.map_eq_some_iff.1 hi
  rcases clause_cases ((clauses raws).take i) raw with ⟨-, hclause⟩ | ⟨hidle, -, -, hclause⟩ |
    ⟨-, -, hclause⟩
  · cases hclause.symm.trans hraw
  · cases hclause.symm.trans hraw
    exact ⟨isTrimmed_trim raw, (isIdle_eq_false_iff.1 hidle).1⟩
  · rw [hclause] at hraw
    split at hraw <;> cases hraw

theorem continuation_mem_of_mem_more (h : body ∈ more rest) : .continuation body ∈ rest := by
  induction rest with
  | nil => cases h
  | cons c rest ih =>
      cases c with
      | ignored => exact List.mem_cons_of_mem _ (ih h)
      | continuation first =>
          rcases List.mem_cons.1 h with rfl | h
          · exact List.mem_cons_self
          · exact List.mem_cons_of_mem _ (ih h)
      | header | entry => cases h

/-- A value that starts in the line of its entry and goes on behind it has a newline between what is
not blank. -/
theorem newline_mem_trim_valueOf (h : IsEntry (clauses raws) before rest name left right)
    (hfirst : trim right ≠ []) (hmore : more rest ≠ []) : '\n' ∈ trim (valueOf right rest) := by
  obtain ⟨body, heq, -⟩ := h
  rcases List.eq_nil_or_concat (more rest) with hnone | ⟨between, last, hlast⟩
  · exact absurd hnone hmore
  · rw [List.concat_eq_append] at hlast
    have hmem : .continuation last ∈ rest := continuation_mem_of_mem_more (by simp [hlast])
    have hthere : .continuation last ∈ clauses raws := by simp [heq, hmem]
    obtain ⟨htrimmed, hne⟩ := isTrimmed_of_continuation hthere
    have hvalue : valueOf right rest =
        trim right ++ (between.flatMap ('\n' :: ·) ++ ['\n']) ++ last := by
      simp [valueOf, hlast]
    rw [hvalue, ((isTrimmed_trim right).append hfirst htrimmed hne).trim]
    simp

end BenchSweep.Ini

namespace BenchSweep.Recipe

open Ini Text

variable {text : String} {path : Path} {value : List Char} {n : Nat}

/-- The lines of the text of a recipe. -/
def clausesOf (text : String) : List Clause := clauses (lines text.toList)

/-- A numeral is in one piece. -/
theorem isTrimmed_of_isNumeral (h : IsNumeral value n) : IsTrimmed value :=
  ⟨fun _ hc => h.not_blank (List.mem_of_head? hc),
    fun _ hc => h.not_blank (List.mem_of_getLast? hc)⟩

/-- A value is a time limit if it is, between blanks, a numeral of a positive number below the
bound. -/
theorem timeLimit?_eq_some_iff :
    timeLimit? value = some n ↔ IsNumeral (trim value) n ∧ 1 ≤ n ∧ n ≤ 2 ^ 64 - 1 := by
  have hbound : n < timeLimitBound ↔ n ≤ 2 ^ 64 - 1 := Nat.lt_succ_iff
  rw [timeLimit?, Option.filter_eq_some_iff, unsigned?_eq_some_iff, decide_eq_true_eq, hbound,
    and_assoc, and_comm (b := 0 < n)]
  rfl

theorem parse_of_not_hasEntry (h : WellFormed (clausesOf text))
    (hnone : ¬ HasEntry (clausesOf text) sectionName timeLimitKey) :
    parse path text = .error (.timeLimitMissing path) := by
  obtain ⟨sections, hread⟩ := (exists_read_ok_iff _).2 h
  have hget : ((sections.get? sectionName).getD Table.empty).get? timeLimitKey = none := by
    rw [← Option.not_isSome_iff_eq_none, Option.isSome_iff_exists]
    rintro ⟨value, hvalue⟩
    exact hnone ((read_values hread).1 hvalue).hasEntry
  simp only [parse, hread, ofSections, hget]

theorem parse_of_hasValue (path : Path) (h : WellFormed (clausesOf text))
    (hvalue : HasValue (clausesOf text) sectionName timeLimitKey value) :
    (∃ n args, timeLimit? value = some n ∧ parse path text = .ok ⟨n, args⟩) ∨
      timeLimit? value = none ∧
        parse path text = .error (.timeLimitInvalid path (String.ofList value)) := by
  obtain ⟨sections, hread⟩ := (exists_read_ok_iff _).2 h
  simp only [parse, hread, ofSections, (read_values hread).2 hvalue]
  cases htime : timeLimit? value with
  | none => exact Or.inr ⟨rfl, rfl⟩
  | some n => exact Or.inl ⟨n, _, rfl, rfl⟩

/-- A value is the time limit that it is a numeral of, or it is refused as it stands. -/
theorem parse_value (path : Path) (h : WellFormed (clausesOf text))
    (hvalue : HasValue (clausesOf text) sectionName timeLimitKey value) :
    (∀ n, (∃ args, parse path text = .ok ⟨n, args⟩) ↔
        IsNumeral (trim value) n ∧ 1 ≤ n ∧ n ≤ 2 ^ 64 - 1) ∧
      ((¬ ∃ n, IsNumeral (trim value) n ∧ 1 ≤ n ∧ n ≤ 2 ^ 64 - 1) →
        parse path text = .error (.timeLimitInvalid path (String.ofList value))) := by
  simp only [← timeLimit?_eq_some_iff]
  rcases parse_of_hasValue path h hvalue with ⟨n, args, htime, hparse⟩ | ⟨htime, hparse⟩
  · rw [htime, hparse]
    refine ⟨fun m => ⟨?_, ?_⟩, fun hnone => absurd ⟨n, rfl⟩ hnone⟩
    · rintro ⟨others, hother⟩
      cases hother
      rfl
    · intro hm
      cases hm
      exact ⟨args, rfl⟩
  · rw [htime, hparse]
    exact ⟨fun n => ⟨nofun, nofun⟩, fun _ => rfl⟩

/-- The time limit is the value of `maxtime` in the sections `DEFAULT`.  A text without one is
refused for that; a value that is no numeral of a positive number of 64 bits is refused as it
stands, with the newlines in it.  So a value in two lines is never a number, unless the first is
blank. -/
theorem parse_timeLimit (path : Path) (text : String) (h : WellFormed (clausesOf text)) :
    (parse path text = .error (.timeLimitMissing path) ↔
        ¬ HasEntry (clausesOf text) "DEFAULT".toList "maxtime".toList) ∧
      (HasEntry (clausesOf text) "DEFAULT".toList "maxtime".toList →
        ∃! v, HasValue (clausesOf text) "DEFAULT".toList "maxtime".toList v) ∧
      (∀ v, HasValue (clausesOf text) "DEFAULT".toList "maxtime".toList v →
        (∀ n, (∃ args, parse path text = .ok ⟨n, args⟩) ↔
          IsNumeral (trim v) n ∧ 1 ≤ n ∧ n ≤ 2 ^ 64 - 1) ∧
        ((¬ ∃ n, IsNumeral (trim v) n ∧ 1 ≤ n ∧ n ≤ 2 ^ 64 - 1) →
          parse path text = .error (.timeLimitInvalid path (String.ofList v)))) ∧
      ∀ before rest left right,
        IsEntry (clausesOf text) before rest "DEFAULT".toList left right →
        keyOf left = "maxtime".toList →
        (trim right ≠ [] → more rest ≠ [] → parse path text =
          .error (.timeLimitInvalid path (String.ofList (valueOf right rest)))) ∧
        ∀ numeral n, trim right = [] → more rest = [numeral] → IsNumeral numeral n → 1 ≤ n →
          n ≤ 2 ^ 64 - 1 → ∃ args, parse path text = .ok ⟨n, args⟩ := by
  refine ⟨⟨fun hmissing hentry => ?_, parse_of_not_hasEntry h⟩, fun hentry => ?_,
    fun v hv => parse_value path h hv, fun before rest left right hentry hkey => ?_⟩
  · obtain ⟨v, hv⟩ := hentry.exists_value
    rcases parse_of_hasValue path h hv with ⟨n, args, -, hparse⟩ | ⟨-, hparse⟩
    · cases hmissing.symm.trans hparse
    · cases hmissing.symm.trans hparse
  · obtain ⟨v, hv⟩ := hentry.exists_value
    exact ⟨v, hv, fun w hw => hw.unique h.obeys hv⟩
  · have hvalue : HasValue (clausesOf text) "DEFAULT".toList "maxtime".toList
        (valueOf right rest) := ⟨before, rest, left, right, hentry, hkey, rfl⟩
    refine ⟨fun hfirst hmore => (parse_value path h hvalue).2 ?_,
      fun numeral n hfirst hmore hnumeral hpos hbound => ?_⟩
    · rintro ⟨n, hnumeral, -⟩
      have hnewline := newline_mem_trim_valueOf hentry hfirst hmore
      exact absurd (hnumeral.not_blank hnewline) (by decide)
    · refine ((parse_value path h hvalue).1 n).2 ⟨?_, hpos, hbound⟩
      have htrim : trim (valueOf right rest) = numeral := by
        have hblank : ∀ c ∈ ['\n'], isBlank c = true := List.forall_mem_singleton.2 rfl
        rw [valueOf, hfirst, hmore]
        simpa [(isTrimmed_of_isNumeral hnumeral).trim] using trim_append_left (s := numeral) hblank
      rwa [htrim]

/-- A time limit below its key, with a comment between them, in a section that was opened before. -/
def lowerLine : String := "[DEFAULT]\n[x]\n[DEFAULT]\nMaxTime :\n  # seconds\n  +0060\n"

theorem parse_timeLimit_lowerLine :
    WellFormed (clausesOf lowerLine) ∧ ∃ args, parse ⟨"config"⟩ lowerLine = .ok ⟨60, args⟩ := by
  have hread : read lowerLine.toList = .ok ⟨[("DEFAULT".toList,
      ⟨[("maxtime".toList, "\n+0060".toList)]⟩), ("x".toList, ⟨[]⟩)]⟩ := by decide +kernel
  have hformed : WellFormed (clausesOf lowerLine) := (exists_read_ok_iff _).1 ⟨_, hread⟩
  have hentry : IsEntry (clausesOf lowerLine)
      [.header "[DEFAULT]".toList, .header "[x]".toList, .header "[DEFAULT]".toList]
      [.ignored, .continuation "+0060".toList] "DEFAULT".toList "MaxTime ".toList [] :=
    ⟨"MaxTime :".toList, by decide +kernel, by decide, ':', rfl, Or.inr rfl, by simp⟩
  have hnumeral : IsNumeral "+0060".toList 60 :=
    ⟨[0, 0, 6, 0], by decide, by decide, Or.inr (by decide), by decide⟩
  exact ⟨hformed, ((parse_timeLimit ⟨"config"⟩ lowerLine hformed).2.2.2 _ _ _ _ hentry
    (by decide)).2 _ 60 rfl rfl hnumeral (by decide) (by decide)⟩

end BenchSweep.Recipe
