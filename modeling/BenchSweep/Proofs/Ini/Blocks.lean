import BenchSweep.Proofs.Ini.Verdict
import BenchSweep.Proofs.Ini.Writing

/-!
# Sections are read each on its own

A text in which no header is indented falls into blocks, each a header with the lines up to the next
header.

* `Ini.preamble`, `Ini.blocks` : the lines in front of the first block, and the blocks.
* `Ini.Block.Turns` : a block turns the entries of its section into others, wherever it is read.
* `Ini.Turned` : the same for several blocks of one section.
* `Ini.Agrees.step_inside` : a line in a section depends on the entries of that section, and changes
  no others.
* `Ini.turned_of_reads`, `Ini.exists_reads_of_turned` : blocks are read if those of every section
  are, each section for itself.
-/

namespace BenchSweep.Ini

open Text

/-! ## Blocks -/

/-- A header with the lines up to the next one. -/
structure Block where
  header : List Char
  body : List (List Char)
  deriving DecidableEq, Repr

namespace Block

/-- The lines of a block. -/
def lines (b : Block) : List (List Char) := b.header :: b.body

/-- The section that the block is a part of. -/
def name (b : Block) : List Char := (trim b.header).tail.dropLast

end Block

/-- Does the line start with the bracket of a header? -/
def opens (raw : List Char) : Bool := raw.head? = some '['

/-- Lines cut in front of each header: those in front of the first header, and the blocks. -/
def cut : List (List Char) → List (List Char) × List Block
  | [] => ([], [])
  | raw :: rest =>
    if opens raw then ([], ⟨raw, (cut rest).1⟩ :: (cut rest).2)
    else (raw :: (cut rest).1, (cut rest).2)

/-- The lines in front of the first header. -/
def preamble (ls : List (List Char)) : List (List Char) := (cut ls).1

/-- The blocks of lines. -/
def blocks (ls : List (List Char)) : List Block := (cut ls).2

/-- Is the line a header? -/
def Clause.isHeader : Clause → Bool
  | header _ => true
  | _ => false

/-- Is no line of a kind, among lines that stand behind others, indented? -/
def Flush (kind : Clause → Bool) (before : List Clause) (ls : List (List Char)) : Prop :=
  ∀ line ∈ ls.zip (clausesAfter before ls), kind line.2 = true → isIndented line.1 = false

/-- Does the block, wherever it is read, turn the entries of its section into others, and leave all
other sections as they are? -/
def Block.Turns (b : Block) (before after : Entries) : Prop :=
  ∀ r : Reading, r.entries b.name = before → ∃ cursor : Cursor, cursor.section? = some b.name ∧
    r.Reads b.lines ⟨r.sections.put b.name after, cursor⟩

/-- Do the blocks, one after the other, turn the entries of their section into others? -/
inductive Turned : (bs : List Block) → (before after : Entries) → Prop
  | nil {entries} : Turned [] entries entries
  | cons {b bs before middle after} (h : b.Turns before middle) (hrest : Turned bs middle after) :
      Turned (b :: bs) before after

variable {raw name body : List Char} {ls ls' : List (List Char)} {done : List Clause}
  {sections : Sections} {entries before after : Entries} {cursor : Cursor}
  {r r' next last : Reading}
  {b : Block} {bs : List Block} {kind : Clause → Bool}

/-! ## Cutting lines -/

theorem preamble_append_blocks (ls : List (List Char)) :
    preamble ls ++ (blocks ls).flatMap Block.lines = ls := by
  unfold preamble blocks
  induction ls with
  | nil => rfl
  | cons raw rest ih =>
      rw [cut]
      split
      · rw [List.nil_append, List.flatMap_cons, Block.lines, List.cons_append, ih]
      · rw [List.cons_append, ih]

/-- A block starts with a header, and no other line of it does. -/
theorem opens_cut (ls : List (List Char)) :
    (∀ raw ∈ preamble ls, opens raw = false) ∧
      ∀ b ∈ blocks ls, opens b.header = true ∧ ∀ raw ∈ b.body, opens raw = false := by
  unfold preamble blocks
  induction ls with
  | nil => simp [cut]
  | cons raw rest ih =>
      obtain ⟨hfront, hblocks⟩ := ih
      rw [cut]
      split
      · next hopens => exact ⟨by simp, List.forall_mem_cons.2 ⟨⟨hopens, hfront⟩, hblocks⟩⟩
      · next hopens =>
          exact ⟨List.forall_mem_cons.2 ⟨by simpa using hopens, hfront⟩, hblocks⟩

theorem Flush.of_append (h : Flush kind done (ls ++ ls')) :
    Flush kind done ls ∧ Flush kind (done ++ clausesAfter done ls) ls' := by
  have hzip : (ls ++ ls').zip (clausesAfter done (ls ++ ls')) =
      ls.zip (clausesAfter done ls) ++
        ls'.zip (clausesAfter (done ++ clausesAfter done ls) ls') := by
    rw [clausesAfter_append, List.zip_append (length_clausesAfter done ls).symm]
  unfold Flush at h
  rw [hzip] at h
  exact List.forall_mem_append.1 h

theorem Flush.of_cons (h : Flush kind done (raw :: ls)) :
    (kind (clause done raw) = true → isIndented raw = false) ∧
      Flush kind (done ++ [clause done raw]) ls := by
  unfold Flush at h
  rw [clausesAfter, List.zip_cons_cons] at h
  exact List.forall_mem_cons.1 h

theorem head?_trim_of_flush (h : isIndented raw = false) : (trim raw).head? = raw.head? := by
  cases raw with
  | nil => rfl
  | cons c rest => exact head?_trim_of_head rfl h

/-- If no header is indented, a line that does not start with a bracket is none. -/
theorem Flush.ne_header (h : Flush Clause.isHeader done (raw :: ls)) (hopens : opens raw = false) :
    clause done raw ≠ .header body := by
  intro hclause
  have hflush : isIndented raw = false := by
    apply h.of_cons.1
    rw [hclause]
    rfl
  have hhead : raw.head? ≠ some '[' := by simpa [opens] using hopens
  rcases clause_cases done raw with ⟨-, heq⟩ | ⟨-, -, -, heq⟩ | ⟨-, -, heq⟩
  · cases hclause.symm.trans heq
  · cases hclause.symm.trans heq
  · rw [head?_trim_of_flush hflush, if_neg hhead] at heq
    cases hclause.symm.trans heq

/-! ## Headers -/

/-- A header that is read once is read everywhere, and opens the section of its name. -/
theorem Reading.step_of_opens (h : opens raw = true) (hstep : r.step raw = .ok next)
    (r' : Reading) : r'.step raw = .ok (r'.openSection (trim raw).tail.dropLast) := by
  have hhead : raw.head? = some '[' := by simpa [opens] using h
  have hflush : isIndented raw = false := by
    rw [isIndented, hhead]
    decide
  have htrim : (trim raw).head? = some '[' := (head?_trim_of_flush hflush).trans hhead
  have hidle : isIdle (trim raw) = false := by
    rw [isIdle_eq_false_iff, htrim]
    refine ⟨?_, by decide, by decide⟩
    intro hnil
    rw [hnil] at htrim
    cases htrim
  obtain ⟨rest, hrest⟩ := List.head?_eq_some_iff.1 htrim
  rw [step_of_statement hidle (Or.inl hflush), hrest, addStatement_header] at hstep
  rw [step_of_statement hidle (Or.inl hflush), hrest, addStatement_header]
  unfold headerName? at hstep ⊢
  split at hstep
  · next hname =>
      split at hname
      · cases hname
        rfl
      · cases hname
  · cases hstep

/-! ## Lines in a section -/

/-- A line that is no header depends on the entries of the section that it stands in, and changes no
others. -/
theorem Agrees.step_inside (h : Agrees ⟨sections.put name entries, cursor⟩ done)
    (hsection : cursor.section? = some name) (hraw : ∀ body, clause done raw ≠ .header body)
    (hstep : Reading.step ⟨sections.put name entries, cursor⟩ raw = .ok next) :
    ∃ (entries' : Entries) (cursor' : Cursor), cursor'.section? = some name ∧
      ∀ sections' : Sections, Reading.step ⟨sections'.put name entries, cursor⟩ raw =
        .ok ⟨sections'.put name entries', cursor'⟩ := by
  rcases clause_cases done raw with ⟨hidle, -⟩ | ⟨hidle, hindented, hmore, -⟩ |
    ⟨hidle, hflush, hclause⟩
  · exact ⟨entries, cursor, hsection, fun sections' => Reading.step_of_idle hidle⟩
  · obtain ⟨⟨other, key⟩, hcursor⟩ : ∃ entry, cursor.entry? = some entry :=
      Option.isSome_iff_exists.1 (h.behind.trans hmore)
    have hother : other = name := by
      cases cursor <;> cases hcursor
      exact Option.some.inj hsection
    subst hother
    exact ⟨_, cursor, hsection, fun sections' =>
      Reading.step_continuation_put hidle hindented hcursor sections' entries⟩
  · have hhead : (trim raw).head? ≠ some '[' := by
      intro hhead
      rw [if_pos hhead] at hclause
      exact hraw _ hclause
    have hcursor : isIndented raw = false ∨ cursor.entry? = none :=
      hflush.imp_right fun hnone => by simpa [← h.behind] using hnone
    have hthere (sections' : Sections) :=
      Reading.step_entry_put hidle hcursor hhead hsection sections' entries
    rw [hthere] at hstep
    cases hkey : keyValue? (trim raw) with
    | error fault =>
        rw [hkey] at hstep
        cases hstep
    | ok entry =>
        simp only [hkey, Except.bind] at hstep hthere
        split at hstep
        · cases hstep
        · next hnew =>
            refine ⟨entries.put entry.1 entry.2, .behindEntry name entry.1, rfl, ?_⟩
            intro sections'
            rw [hthere, if_neg hnew]

theorem Agrees.reads (h : Agrees r done) (hreads : r.Reads ls last) :
    Agrees last (done ++ clausesAfter done ls) := by
  induction ls generalizing r done with
  | nil =>
      obtain rfl : r = last := Except.ok.inj (hreads 0)
      rwa [clausesAfter, List.append_nil]
  | cons raw ls ih =>
      obtain ⟨middle, hstep, hrest⟩ := hreads.of_cons
      rw [clausesAfter, List.append_cons]
      rcases h.step raw with ⟨next, hnext, hagrees, -⟩ | ⟨fault, herror, -⟩
      · obtain rfl := Except.ok.inj (hnext.symm.trans hstep)
        exact ih hagrees hrest
      · cases herror.symm.trans hstep

/-- So do several lines, if none of them is a header. -/
theorem Agrees.reads_inside (h : Agrees ⟨sections.put name entries, cursor⟩ done)
    (hsection : cursor.section? = some name) (hopens : ∀ raw ∈ ls, opens raw = false)
    (hflush : Flush Clause.isHeader done ls)
    (hreads : Reading.Reads ⟨sections.put name entries, cursor⟩ ls last) :
    ∃ (entries' : Entries) (cursor' : Cursor), cursor'.section? = some name ∧
      ∀ sections' : Sections, Reading.Reads ⟨sections'.put name entries, cursor⟩ ls
        ⟨sections'.put name entries', cursor'⟩ := by
  induction ls generalizing entries cursor done with
  | nil => exact ⟨entries, cursor, hsection, fun sections' => Reading.Reads.nil _⟩
  | cons raw ls ih =>
      obtain ⟨hraw, hls⟩ := List.forall_mem_cons.1 hopens
      obtain ⟨middle, hstep, hrest⟩ := hreads.of_cons
      obtain ⟨entries₁, cursor₁, hsection₁, hthere⟩ :=
        h.step_inside hsection (fun _ => hflush.ne_header hraw) hstep
      obtain rfl := Except.ok.inj ((hthere sections).symm.trans hstep)
      have hone : Reading.Reads ⟨sections.put name entries, cursor⟩ [raw]
          ⟨sections.put name entries₁, cursor₁⟩ := .cons (hthere sections) (.nil _)
      obtain ⟨entries', cursor', hsection', hlast⟩ :=
        ih (h.reads hone) hsection₁ hls hflush.of_cons.2 hrest
      refine ⟨entries', cursor', hsection', ?_⟩
      intro sections'
      exact .cons (hthere sections') (hlast sections')

/-- In front of the first header nothing is said. -/
theorem Agrees.idle_of_reads (h : Agrees r done) (houtside : r.cursor = .outside)
    (hopens : ∀ raw ∈ ls, opens raw = false) (hflush : Flush Clause.isHeader done ls)
    (hreads : r.Reads ls last) : ∀ raw ∈ ls, isIdle (trim raw) = true := by
  induction ls generalizing r done with
  | nil => simp
  | cons raw ls ih =>
      obtain ⟨hraw, hls⟩ := List.forall_mem_cons.1 hopens
      obtain ⟨middle, hstep, hrest⟩ := hreads.of_cons
      have hcursor : r.cursor.entry? = none := by
        rw [houtside]
        rfl
      rcases clause_cases done raw with ⟨hidle, -⟩ | ⟨-, -, hmore, -⟩ | ⟨hidle, -, hclause⟩
      · have hsame := Reading.step_of_idle (r := r) hidle
        obtain rfl := Except.ok.inj (hsame.symm.trans hstep)
        have hagrees := h.reads (Reading.Reads.cons hstep (Reading.Reads.nil _))
        exact List.forall_mem_cons.2 ⟨hidle, ih hagrees houtside hls hflush.of_cons.2 hrest⟩
      · rw [← h.behind, hcursor] at hmore
        cases hmore
      · -- an entry would stand outside of any section
        have hhead : (trim raw).head? ≠ some '[' := by
          intro hhead
          rw [if_pos hhead] at hclause
          exact hflush.ne_header hraw hclause
        rw [Reading.step_of_statement hidle (Or.inr hcursor), Reading.addStatement_entry hhead,
          houtside] at hstep
        cases hstep

theorem Reading.reads_of_idle (h : ∀ raw ∈ ls, isIdle (trim raw) = true) (r : Reading) :
    r.Reads ls r := by
  induction ls with
  | nil => exact Reads.nil r
  | cons raw ls ih =>
      obtain ⟨hraw, hls⟩ := List.forall_mem_cons.1 h
      exact Reads.cons (step_of_idle hraw) (ih hls)

/-! ## Blocks of a text -/

/-- A block that is read somewhere turns the entries of its section into those it has then. -/
theorem Agrees.turns (h : Agrees r done) (hheader : opens b.header = true)
    (hbody : ∀ raw ∈ b.body, opens raw = false) (hflush : Flush Clause.isHeader done b.lines)
    (hreads : r.Reads b.lines last) :
    b.Turns (r.entries b.name) (last.entries b.name) ∧
      ∀ name, b.name ≠ name → last.entries name = r.entries name := by
  obtain ⟨middle, hstep, hrest⟩ := hreads.of_cons
  have hopen := Reading.step_of_opens hheader hstep
  obtain rfl : r.openSection b.name = middle := Except.ok.inj ((hopen r).symm.trans hstep)
  have hagrees := h.reads (Reading.Reads.cons hstep (Reading.Reads.nil _))
  obtain ⟨entries', cursor', hsection, hthere⟩ :=
    hagrees.reads_inside rfl hbody hflush.of_cons.2 hrest
  obtain rfl := Except.ok.inj ((hthere r.sections 0).symm.trans (hrest 0))
  constructor
  · intro r' hentries
    refine ⟨cursor', hsection, .cons (hopen r') ?_⟩
    rw [Reading.entries_mk_put, if_pos rfl]
    have hbehind := hthere r'.sections
    rwa [← hentries] at hbehind
  · intro name hne
    rw [Reading.entries_mk_put, if_neg hne]
    rfl

/-- Blocks that are read turn the entries of every section into those it has then. -/
theorem Agrees.turned (h : Agrees r done)
    (hblocks : ∀ b ∈ bs, opens b.header = true ∧ ∀ raw ∈ b.body, opens raw = false)
    (hflush : Flush Clause.isHeader done (bs.flatMap Block.lines))
    (hreads : r.Reads (bs.flatMap Block.lines) last) (name : List Char) :
    Turned (bs.filter (·.name = name)) (r.entries name) (last.entries name) := by
  induction bs generalizing r done with
  | nil =>
      obtain rfl : r = last := Except.ok.inj (hreads 0)
      exact .nil
  | cons b bs ih =>
      obtain ⟨⟨hheader, hbody⟩, hbs⟩ := List.forall_mem_cons.1 hblocks
      rw [List.flatMap_cons] at hflush hreads
      obtain ⟨hflush, hflushRest⟩ := hflush.of_append
      obtain ⟨middle, hfront, hrest⟩ := hreads.of_append
      obtain ⟨hturns, hothers⟩ := h.turns hheader hbody hflush hfront
      have hmore := ih (h.reads hfront) hbs hflushRest hrest
      by_cases hname : b.name = name
      · subst hname
        rw [List.filter_cons_of_pos (by simp)]
        exact .cons hturns hmore
      · rw [List.filter_cons_of_neg (by simpa using hname)]
        rwa [hothers name hname] at hmore

theorem Turned.eq_of_nil (h : Turned [] before after) : before = after := by
  cases h
  rfl

/-- Blocks are read if, for every section, its own blocks turn its entries into some. -/
theorem exists_reads_of_turned (r : Reading) {result : List Char → Entries}
    (h : ∀ name, Turned (bs.filter (·.name = name)) (r.entries name) (result name)) :
    ∃ last, r.Reads (bs.flatMap Block.lines) last ∧ ∀ name, last.entries name = result name := by
  induction bs generalizing r with
  | nil => exact ⟨r, Reading.Reads.nil r, fun name => (h name).eq_of_nil⟩
  | cons b bs ih =>
      have hhere := h b.name
      rw [List.filter_cons_of_pos (by simp)] at hhere
      cases hhere with
      | @cons _ _ _ middle _ hturns hrest =>
          obtain ⟨cursor, -, hfront⟩ := hturns r rfl
          have hthere (name : List Char) : Turned (bs.filter (·.name = name))
              (Reading.entries ⟨r.sections.put b.name middle, cursor⟩ name) (result name) := by
            rw [Reading.entries_mk_put]
            split
            · next hname => exact hname ▸ hrest
            · next hname =>
                have hother := h name
                rwa [List.filter_cons_of_neg (by simpa using hname)] at hother
          obtain ⟨last, hlast, hentries⟩ := ih _ hthere
          refine ⟨last, ?_, hentries⟩
          rw [List.flatMap_cons]
          exact hfront.append hlast

/-- What is read of a section is what its own blocks turn no entries into. -/
theorem turned_of_reads (hflush : Flush Clause.isHeader [] ls)
    (hreads : Reading.initial.Reads ls last) :
    (∀ raw ∈ preamble ls, isIdle (trim raw) = true) ∧
      ∀ name, Turned ((blocks ls).filter (·.name = name)) Table.empty (last.entries name) := by
  obtain ⟨hfront, hblocks⟩ := opens_cut ls
  rw [← preamble_append_blocks ls] at hflush hreads
  obtain ⟨hflushFront, hflush⟩ := hflush.of_append
  obtain ⟨middle, hreadsFront, hreads⟩ := hreads.of_append
  have hidle := agrees_initial.idle_of_reads rfl hfront hflushFront hreadsFront
  obtain rfl := Except.ok.inj
    ((Reading.reads_of_idle hidle Reading.initial 0).symm.trans (hreadsFront 0))
  exact ⟨hidle, (agrees_initial.reads hreadsFront).turned hblocks hflush hreads⟩

/-- A text whose blocks are put together anew is read, if every section has some entries that its
own blocks then turn none into; and these are its entries. -/
theorem exists_read_of_turned {front : List (List Char)} {text : List Char}
    {result : List Char → Entries} (hfront : ∀ raw ∈ front, isIdle (trim raw) = true)
    (htext : lines text = front ++ bs.flatMap Block.lines)
    (h : ∀ name, Turned (bs.filter (·.name = name)) Table.empty (result name)) :
    ∃ sections, read text = .ok sections ∧
      ∀ name, (sections.get? name).getD Table.empty = result name := by
  obtain ⟨last, hreads, hentries⟩ := exists_reads_of_turned Reading.initial h
  refine ⟨last.sections, ?_, hentries⟩
  rw [Reading.read_eq_ok_iff, htext]
  exact ⟨last, (Reading.reads_of_idle hfront .initial).append hreads, rfl⟩

end BenchSweep.Ini
