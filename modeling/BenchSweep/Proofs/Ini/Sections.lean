import BenchSweep.Proofs.Ini.Blocks
import BenchSweep.Proofs.Ini.TimeLimit

/-!
# The section of a recipe

* `Ini.StartsFlush`, `Ini.Merges` : blocks joined to the ones in front of them.
* `Recipe.parse_of_turned` : the blocks of the section `DEFAULT` give the recipe.
* `Recipe.parse_sections` : without the blocks of other sections, and with its own blocks joined,
  a text gives the same recipe, or the same failure.
-/

namespace BenchSweep.Ini

open Text

/-- Is the first of the lines that says something, if there is one, not indented? -/
def StartsFlush (ls : List (List Char)) : Prop :=
  ∀ raw ∈ ls.find? (fun raw => !isIdle (trim raw)), isIndented raw = false

/-- Are the second blocks the first ones, but that the lines behind the headers of some, which start
flush, are moved to the end of the block in front? -/
inductive Merges : (bs bs' : List Block) → Prop
  | nil : Merges [] []
  | keep {b bs bs'} (h : Merges bs bs') : Merges (b :: bs) (b :: bs')
  | join {b b' bs bs'} (hflush : StartsFlush b'.body)
      (h : Merges (⟨b.header, b.body ++ b'.body⟩ :: bs) bs') : Merges (b :: b' :: bs) bs'

variable {raw name body : List Char} {ls : List (List Char)} {sections sections' : Sections}
  {before middle after : Entries} {cursor cursor' last : Cursor} {b b' : Block}
  {bs bs' : List Block}

/-! ## Joining blocks -/

/-- A statement depends on the section that the reader is in, but not on where it is there. -/
theorem Reading.addStatement_congr (h : cursor'.section? = cursor.section?) (body : List Char) :
    addStatement ⟨sections, cursor'⟩ body = addStatement ⟨sections, cursor⟩ body := by
  unfold addStatement
  rw [h]
  rfl

/-- Lines that start flush may stand behind an entry as well as behind a header. -/
theorem StartsFlush.reads (hflush : StartsFlush ls) (hsection : cursor'.section? = cursor.section?)
    (h : Reading.Reads ⟨sections, cursor⟩ ls ⟨sections', last⟩) :
    ∃ last' : Cursor, last'.section? = last.section? ∧
      Reading.Reads ⟨sections, cursor'⟩ ls ⟨sections', last'⟩ := by
  induction ls with
  | nil =>
      cases h 0
      exact ⟨cursor', hsection, Reading.Reads.nil _⟩
  | cons raw ls ih =>
      obtain ⟨next, hstep, hrest⟩ := h.of_cons
      unfold StartsFlush at hflush
      rw [List.find?_cons] at hflush
      by_cases hidle : isIdle (trim raw) = true
      · have hsame := Reading.step_of_idle (r := ⟨sections, cursor⟩) hidle
        obtain rfl := Except.ok.inj (hsame.symm.trans hstep)
        have hflush' : StartsFlush ls := by simpa [StartsFlush, hidle] using hflush
        obtain ⟨last', hlast, hreads⟩ := ih hflush' hrest
        exact ⟨last', hlast, .cons (Reading.step_of_idle hidle) hreads⟩
      · -- from here on the reader is in the same place
        have hidle : isIdle (trim raw) = false := by simpa using hidle
        have hraw : isIndented raw = false := by simpa [hidle] using hflush
        rw [Reading.step_of_statement hidle (Or.inl hraw)] at hstep
        refine ⟨last, rfl, .cons ?_ hrest⟩
        rw [Reading.step_of_statement hidle (Or.inl hraw), Reading.addStatement_congr hsection,
          hstep]

/-- Two blocks of a section do together what they do one after the other. -/
theorem Block.Turns.append (h : b.Turns before middle) (h' : b'.Turns middle after)
    (hname : b'.name = b.name) (hopens : opens b'.header = true) (hflush : StartsFlush b'.body) :
    Block.Turns ⟨b.header, b.body ++ b'.body⟩ before after := by
  intro r hentries
  obtain ⟨cursor, hsection, hreads⟩ := h r hentries
  have hmiddle : Reading.entries ⟨r.sections.put b.name middle, cursor⟩ b'.name = middle := by
    rw [Reading.entries_mk_put, if_pos hname.symm]
  obtain ⟨cursor', hsection', hreads'⟩ := h' _ hmiddle
  obtain ⟨next, hstep, hrest⟩ := hreads'.of_cons
  have hopen := Reading.step_of_opens hopens hstep ⟨r.sections.put b.name middle, cursor⟩
  obtain rfl := Except.ok.inj (hopen.symm.trans hstep)
  -- the header of the second block only opens the section that is open
  have hunder : Reading.openSection ⟨r.sections.put b.name middle, cursor⟩ b'.name =
      ⟨r.sections.put b.name middle, .underHeader b.name⟩ := by
    rw [Reading.openSection, hmiddle, hname, Table.put_put]
  have hbody : Reading.Reads ⟨r.sections.put b.name middle, .underHeader b.name⟩ b'.body
      ⟨r.sections.put b.name after, cursor'⟩ := by
    rw [← hunder]
    rwa [hname, Table.put_put] at hrest
  obtain ⟨last, hlast, hjoined⟩ := hflush.reads hsection hbody
  refine ⟨last, hlast.trans (hsection'.trans (congrArg some hname)), ?_⟩
  exact hreads.append hjoined

theorem Turned.merges (h : Turned bs before after) (hmerges : Merges bs bs')
    (hblocks : ∀ b ∈ bs, b.name = name ∧ opens b.header = true) : Turned bs' before after := by
  induction hmerges generalizing before with
  | nil => exact h
  | keep _ ih =>
      cases h with
      | cons hturns hrest =>
          exact .cons hturns (ih hrest (List.forall_mem_cons.1 hblocks).2)
  | @join b b' bs bs' hflush _ ih =>
      obtain ⟨⟨hname, hopens⟩, hmore⟩ := List.forall_mem_cons.1 hblocks
      obtain ⟨⟨hname', hopens'⟩, hbs⟩ := List.forall_mem_cons.1 hmore
      cases h with
      | cons hturns hrest =>
          cases hrest with
          | cons hturns' hrest =>
              have hjoined := hturns.append hturns' (hname'.trans hname.symm) hopens' hflush
              apply ih (.cons hjoined hrest)
              exact List.forall_mem_cons.2 ⟨⟨hname, hopens⟩, hbs⟩

/-- Without the blocks of one section the blocks of another are the same. -/
theorem filter_name_filter {other : List Char} (hne : other ≠ name) (bs : List Block) :
    (bs.filter (·.name ≠ name)).filter (·.name = other) = bs.filter (·.name = other) := by
  rw [List.filter_filter]
  apply List.filter_congr
  intro b _
  by_cases hother : b.name = other
  · simp [hother, hne]
  · simp [hother]

end BenchSweep.Ini

namespace BenchSweep.Recipe

open Ini Text

variable {text text' : String} {bs : List Block}

/-- A recipe depends on the section that it is read from, and on no other. -/
theorem parse_congr (path : Path) {sections sections' : Sections}
    (h : read text.toList = .ok sections) (h' : read text'.toList = .ok sections')
    (hsame : ∀ key, ((sections'.get? sectionName).getD Table.empty).get? key =
      ((sections.get? sectionName).getD Table.empty).get? key) :
    parse path text' = parse path text := by
  simp only [parse, h, h', ofSections, hsame]

/-- A text of other blocks gives the same recipe, if those of the section `DEFAULT` do what they did
before, and any other section has its own blocks or none. -/
theorem parse_of_turned (path : Path) (hformed : WellFormed (clausesOf text))
    (hheaders : Flush Clause.isHeader [] (lines text.toList))
    (htext : lines text'.toList = preamble (lines text.toList) ++ bs.flatMap Block.lines)
    (hsection : ∀ before after,
      Turned ((blocks (lines text.toList)).filter (·.name = sectionName)) before after →
      Turned (bs.filter (·.name = sectionName)) before after)
    (hothers : ∀ name, name ≠ sectionName →
      bs.filter (·.name = name) = (blocks (lines text.toList)).filter (·.name = name) ∨
        bs.filter (·.name = name) = []) :
    WellFormed (clausesOf text') ∧ parse path text' = parse path text := by
  obtain ⟨sections, hread⟩ := (exists_read_ok_iff _).2 hformed
  obtain ⟨last, hreads, rfl⟩ := Reading.read_eq_ok_iff.1 hread
  obtain ⟨hfront, hturned⟩ := turned_of_reads hheaders hreads
  have hresult (name : List Char) : ∃ entries,
      Turned (bs.filter (·.name = name)) Table.empty entries ∧
        (name = sectionName → entries = last.entries name) := by
    by_cases hname : name = sectionName
    · subst hname
      exact ⟨_, hsection _ _ (hturned sectionName), fun _ => rfl⟩
    · rcases hothers name hname with hsame | hnone
      · exact ⟨_, hsame ▸ hturned name, fun h => absurd h hname⟩
      · exact ⟨Table.empty, hnone ▸ Turned.nil, fun h => absurd h hname⟩
  choose result hresult hdefault using hresult
  obtain ⟨sections', hread', hentries⟩ := exists_read_of_turned hfront htext hresult
  refine ⟨(exists_read_ok_iff _).1 ⟨sections', hread'⟩, parse_congr path hread hread' ?_⟩
  intro key
  rw [hentries sectionName, hdefault sectionName rfl]
  rfl

/-- If no header is indented, the lines of sections other than `DEFAULT` change nothing, wherever
they stand, and the blocks of `DEFAULT` may be joined in their order. -/
theorem parse_sections (path : Path) (text : String) (hformed : WellFormed (clausesOf text))
    (hheaders : Flush Clause.isHeader [] (lines text.toList)) :
    (∀ text' : String,
      lines text'.toList = preamble (lines text.toList) ++
        ((blocks (lines text.toList)).filter (·.name = "DEFAULT".toList)).flatMap Block.lines →
      WellFormed (clausesOf text') ∧ parse path text' = parse path text) ∧
    ∀ (text' : String) (bs : List Block),
      lines text'.toList = preamble (lines text.toList) ++ bs.flatMap Block.lines →
      bs.filter (·.name ≠ "DEFAULT".toList) =
        (blocks (lines text.toList)).filter (·.name ≠ "DEFAULT".toList) →
      Merges ((blocks (lines text.toList)).filter (·.name = "DEFAULT".toList))
        (bs.filter (·.name = "DEFAULT".toList)) →
      WellFormed (clausesOf text') ∧ parse path text' = parse path text := by
  constructor
  · intro text' htext
    apply parse_of_turned path hformed hheaders htext
    · intro before after hturned
      have hagain : ((blocks (lines text.toList)).filter (·.name = sectionName)).filter
          (·.name = sectionName) = (blocks (lines text.toList)).filter (·.name = sectionName) := by
        rw [List.filter_filter]
        simp only [Bool.and_self]
      exact hagain.symm ▸ hturned
    · intro name hname
      right
      rw [List.filter_eq_nil_iff]
      intro b hb hb'
      exact hname ((of_decide_eq_true hb').symm.trans (of_decide_eq_true (List.mem_filter.1 hb).2))
  · intro text' bs htext hsame hmerges
    apply parse_of_turned path hformed hheaders htext
    · intro before after hturned
      apply hturned.merges hmerges
      intro b hb
      obtain ⟨hmem, hname⟩ := List.mem_filter.1 hb
      exact ⟨of_decide_eq_true hname, ((opens_cut _).2 b hmem).1⟩
    · intro name hname
      left
      rw [← filter_name_filter hname bs, ← filter_name_filter hname (blocks _)]
      exact congrArg (List.filter _) hsame

/-- Two blocks of `DEFAULT` between two of another section. -/
def interleaved : String :=
  "; c\n[x]\nmaxtime = 99\n[DEFAULT]\nargs = 1\n  2\n[x]\n  y\t: 3\n[DEFAULT]\n# d\nmaxtime = 7\n"

/-- The text without the other section. -/
def pruned : String := "; c\n[DEFAULT]\nargs = 1\n  2\n[DEFAULT]\n# d\nmaxtime = 7\n"

/-- The text with one block of `DEFAULT`. -/
def joined : String :=
  "; c\n[x]\nmaxtime = 99\n[DEFAULT]\nargs = 1\n  2\n# d\nmaxtime = 7\n[x]\n  y\t: 3\n"

theorem parse_sections_interleaved :
    parse ⟨"config"⟩ interleaved = .ok ⟨7, ["1", "2"]⟩ ∧
      parse ⟨"config"⟩ pruned = parse ⟨"config"⟩ interleaved ∧
      parse ⟨"config"⟩ joined = parse ⟨"config"⟩ interleaved := by
  have hparse : parse ⟨"config"⟩ interleaved = .ok ⟨7, ["1", "2"]⟩ := by decide +kernel
  have hread : ∃ sections, Ini.read interleaved.toList = .ok sections :=
    ⟨⟨[("x".toList, ⟨[("maxtime".toList, "99".toList), ("y".toList, "3".toList)]⟩),
      ("DEFAULT".toList, ⟨[("args".toList, "1\n2".toList), ("maxtime".toList, "7".toList)]⟩)]⟩,
      by decide +kernel⟩
  have hlines : lines interleaved.toList = ["; c".toList, "[x]".toList, "maxtime = 99".toList,
      "[DEFAULT]".toList, "args = 1".toList, "  2".toList, "[x]".toList, "  y\t: 3".toList,
      "[DEFAULT]".toList, "# d".toList, "maxtime = 7".toList] := by
    decide +kernel
  have hpruned : lines pruned.toList = ["; c".toList, "[DEFAULT]".toList, "args = 1".toList,
      "  2".toList, "[DEFAULT]".toList, "# d".toList, "maxtime = 7".toList] := by
    decide +kernel
  have hjoined : lines joined.toList = ["; c".toList, "[x]".toList, "maxtime = 99".toList,
      "[DEFAULT]".toList, "args = 1".toList, "  2".toList, "# d".toList, "maxtime = 7".toList,
      "[x]".toList, "  y\t: 3".toList] := by
    decide +kernel
  have hheaders : Flush Clause.isHeader [] (lines interleaved.toList) := by
    rw [hlines]
    unfold Flush
    decide +kernel
  have hsections := parse_sections ⟨"config"⟩ interleaved ((exists_read_ok_iff _).1 hread) hheaders
  rw [hlines] at hsections
  have hmerges : Merges
      [⟨"[DEFAULT]".toList, ["args = 1".toList, "  2".toList]⟩,
        ⟨"[DEFAULT]".toList, ["# d".toList, "maxtime = 7".toList]⟩]
      [⟨"[DEFAULT]".toList,
        ["args = 1".toList, "  2".toList, "# d".toList, "maxtime = 7".toList]⟩] := by
    refine .join ?_ (.keep .nil)
    unfold StartsFlush
    decide
  refine ⟨hparse, (hsections.1 pruned ?_).2, (hsections.2 joined
    [⟨"[x]".toList, ["maxtime = 99".toList]⟩,
      ⟨"[DEFAULT]".toList, ["args = 1".toList, "  2".toList, "# d".toList, "maxtime = 7".toList]⟩,
      ⟨"[x]".toList, ["  y\t: 3".toList]⟩] ?_ ?_ ?_).2⟩
  · rw [hpruned]
    decide +kernel
  · rw [hjoined]
    decide +kernel
  · decide +kernel
  · exact hmerges

end BenchSweep.Recipe
