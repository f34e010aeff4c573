import BenchSweep.Proofs.Ini.Step
import BenchSweep.Proofs.Table
import BenchSweep.Proofs.Text.Lines
import BenchSweep.Proofs.Text.Trim

/-!
# Writing sectioned texts

* `Ini.write` : sections as a text, in the order of their rows.
* `Ini.IsName`, `Ini.IsKey`, `Ini.IsValue` : what can be written so that it is read back.
* `Ini.Writable`, `Ini.IsMap` : sections that consist of such names, keys and values, and that
  are finite maps.
* `Ini.Reading.step_headerLine`, `Ini.Reading.step_entryLine`, `Ini.Reading.reads_goingOn` : every
  line is read as what it was written for.
* `Ini.read_write` : sections are read back from what is written, in the order of their rows.
-/

namespace BenchSweep.Ini

open Text

/-! ## Texts -/

/-- The lines of a value. -/
def valueLines (value : List Char) : List (List Char) := pieces (· == '\n') value

/-- The line of a header. -/
def headerLine (name : List Char) : List Char := '[' :: name ++ [']']

/-- The first line of an entry. -/
def entryLine (key first : List Char) : List Char := key ++ " = ".toList ++ first

/-- A line that goes on with a value. -/
def continuationLine (line : List Char) : List Char := "    ".toList ++ line

/-- The lines of an entry. -/
def entryLines (key value : List Char) : List (List Char) :=
  entryLine key ((valueLines value).headD []) :: (valueLines value).tail.map continuationLine

/-- The lines of a section. -/
def sectionLines (name : List Char) (entries : Entries) : List (List Char) :=
  headerLine name :: entries.rows.flatMap fun row => entryLines row.1 row.2

/-- The text of sections: every line ends with an LF. -/
def write (sections : Sections) : List Char :=
  (sections.rows.flatMap fun row => sectionLines row.1 row.2).flatMap (· ++ ['\n'])

/-! ## What can be written -/

/-- Can the name of a section be read back? -/
def IsName (name : List Char) : Prop := '\n' ∉ name

/-- Can a key be read back? -/
structure IsKey (key : List Char) : Prop where
  ne_nil : key ≠ []
  trimmed : trim key = key
  lower : lowercase key = key
  plain : ∀ c ∈ key, c ≠ '\n' ∧ c ≠ '=' ∧ c ≠ ':'
  unmarked : ∀ c, key.head? = some c → c ≠ '[' ∧ c ≠ '#' ∧ c ≠ ';'

/-- Can a value be read back? -/
structure IsValue (value : List Char) : Prop where
  trimmed : ∀ line ∈ valueLines value, trim line = line
  ne_nil : ∀ line ∈ (valueLines value).tail, line ≠ []
  unmarked : ∀ line ∈ (valueLines value).tail, ∀ c, line.head? = some c → c ≠ '#' ∧ c ≠ ';'

/-- Do sections consist of what can be read back? -/
structure Writable (sections : Sections) : Prop where
  name : ∀ name entries, sections.get? name = some entries → IsName name
  key : ∀ name entries key value, sections.get? name = some entries →
    entries.get? key = some value → IsKey key
  value : ∀ name entries key value, sections.get? name = some entries →
    entries.get? key = some value → IsValue value

/-- Are sections a finite map of finite maps? -/
structure IsMap (sections : Sections) : Prop where
  names : sections.Distinct
  keys : ∀ name entries, sections.get? name = some entries → entries.Distinct

/-- Do two tables of sections stand for the same map? -/
def Same (sections other : Sections) : Prop :=
  ∀ name, (sections.get? name).map Table.get? = (other.get? name).map Table.get?

variable {name key value first line right : List Char} {r next last : Reading}

/-! ## Lines that are written -/

theorem IsKey.isTrimmed (h : IsKey key) : IsTrimmed key := trim_eq_self_iff.1 h.trimmed

theorem isTrimmed_headerLine (name : List Char) : IsTrimmed (headerLine name) := by
  have hopen : IsTrimmed ['['] := trim_eq_self_iff.1 (by decide)
  have hclose : IsTrimmed [']'] := trim_eq_self_iff.1 (by decide)
  exact hopen.append (by simp) hclose (by simp)

/-- Behind the key and a blank stands the delimiter, and behind the delimiter the first line of the
value. -/
theorem trim_entryLine (hkey : IsKey key) (hfirst : trim first = first) :
    ∃ right, trim (entryLine key first) = key ++ " =".toList ++ right ∧ trim right = first := by
  by_cases hnil : first = []
  · -- the blank behind the delimiter is taken away
    refine ⟨[], ?_, by rw [hnil, trim_nil]⟩
    have hbody : IsTrimmed (key ++ [' '] ++ ['=']) :=
      hkey.isTrimmed.append hkey.ne_nil (trim_eq_self_iff.1 (by decide)) (by simp)
    have hline : entryLine key first = key ++ [' '] ++ ['='] ++ [' '] := by
      simp [entryLine, hnil]
    rw [hline, trim_append_right (List.all_eq_true.1 rfl), hbody.trim]
    simp
  · refine ⟨' ' :: first, ?_, ?_⟩
    · have hbody : IsTrimmed (entryLine key first) :=
        hkey.isTrimmed.append hkey.ne_nil (trim_eq_self_iff.1 hfirst) hnil
      rw [hbody.trim]
      simp [entryLine]
    · have hblank : ∀ c ∈ [' '], isBlank c = true := List.all_eq_true.1 rfl
      exact (trim_append_left hblank).trans hfirst

theorem trim_continuationLine (hline : trim line = line) :
    trim (continuationLine line) = line := by
  have hblank : ∀ c ∈ "    ".toList, isBlank c = true := List.all_eq_true.1 rfl
  exact (trim_append_left hblank).trans hline

/-- Does the line go on with the value in front of it, if there is one? -/
def GoesOn (raw : List Char) : Prop := isIndented raw = true ∧ isIdle (trim raw) = false

theorem goesOn_continuationLine (hline : trim line = line) (hne : line ≠ [])
    (hunmarked : ∀ c, line.head? = some c → c ≠ '#' ∧ c ≠ ';') :
    GoesOn (continuationLine line) := by
  refine ⟨rfl, ?_⟩
  rw [trim_continuationLine hline, isIdle_eq_false_iff]
  exact ⟨hne, fun h => (hunmarked _ h).1 rfl, fun h => (hunmarked _ h).2 rfl⟩

/-! ## One line -/

namespace Reading

/-- A header is read as a header. -/
theorem step_headerLine (r : Reading) (name : List Char) :
    r.step (headerLine name) = .ok (r.openSection name) := by
  have hname : headerName? (name ++ [']']) = some name := by simp [headerName?]
  have htrim := (isTrimmed_headerLine name).trim
  rw [step_of_statement (by rw [htrim]; rfl) (Or.inl rfl), htrim]
  change r.addStatement ('[' :: (name ++ [']'])) = _
  rw [addStatement_header, hname]

/-- An entry is read as an entry, with the first line of its value. -/
theorem step_entryLine (hkey : IsKey key) (hfirst : trim first = first)
    (hsection : r.cursor.section? = some name) (hnew : (r.entries name).get? key = none) :
    r.step (entryLine key first) = .ok ⟨r.setEntry name key first, .behindEntry name key⟩ := by
  obtain ⟨right, htrim, hright⟩ := trim_entryLine hkey hfirst
  obtain ⟨c, tail, rfl⟩ := List.exists_cons_of_ne_nil hkey.ne_nil
  obtain ⟨hbracket, hhash, hsemicolon⟩ := hkey.unmarked c rfl
  have hidle : isIdle (trim (entryLine (c :: tail) first)) = false := by
    rw [htrim]
    simp [isIdle, hhash, hsemicolon]
  have hraw : isIndented (entryLine (c :: tail) first) = false := hkey.isTrimmed.head c rfl
  have hparts : Parts (trim (entryLine (c :: tail) first)) (c :: tail ++ [' ']) right := by
    refine ⟨'=', by simp [htrim], Or.inl rfl, fun d hd => ?_⟩
    rcases List.mem_append.1 hd with hd | hd
    · exact (hkey.plain d hd).2
    · rw [List.mem_singleton.1 hd]
      decide
  have hleft : trim (c :: tail ++ [' ']) = c :: tail := by
    have hblank : ∀ c ∈ [' '], isBlank c = true := List.all_eq_true.1 rfl
    exact (trim_append_right hblank).trans hkey.trimmed
  have hkeyOf : keyOf (c :: tail ++ [' ']) = c :: tail := by rw [keyOf, hleft, hkey.lower]
  rw [step_of_statement hidle (Or.inl hraw), addStatement_entry (by simp [htrim, hbracket]),
    hsection, keyValue?_of_parts hparts, hleft, if_neg hkey.ne_nil, hkeyOf, hright]
  simp [Except.bind, addEntry, hnew]

/-! ## Several lines -/

theorem steps_append (r : Reading) (number : Nat) (ls ls' : List (List Char)) :
    r.steps number (ls ++ ls') =
      (r.steps number ls).bind fun next => next.steps (number + ls.length) ls' := by
  induction ls generalizing r number with
  | nil => rfl
  | cons raw ls ih =>
      rw [List.cons_append, steps, steps]
      cases r.step raw with
      | error fault => rfl
      | ok next => simp only [ih, List.length_cons, Nat.add_assoc, Nat.add_comm 1]

/-- Are the lines read to the end, whatever the number of the first? -/
def Reads (r : Reading) (ls : List (List Char)) (next : Reading) : Prop :=
  ∀ number, r.steps number ls = .ok next

theorem Reads.nil (r : Reading) : Reads r [] r := fun _ => rfl

theorem Reads.cons {raw : List Char} {ls : List (List Char)} (h : r.step raw = .ok next)
    (h' : Reads next ls last) : Reads r (raw :: ls) last := fun number => by
  rw [steps, h]
  exact h' (number + 1)

theorem Reads.append {ls ls' : List (List Char)} (h : Reads r ls next) (h' : Reads next ls' last) :
    Reads r (ls ++ ls') last := fun number => by
  rw [steps_append, h number]
  exact h' (number + ls.length)

theorem reads_of_steps {ls : List (List Char)} {number : Nat} (h : r.steps number ls = .ok last) :
    r.Reads ls last := by
  induction ls generalizing r number with
  | nil =>
      cases h
      exact Reads.nil _
  | cons raw ls ih =>
      rw [steps] at h
      cases hstep : r.step raw with
      | error fault =>
          rw [hstep] at h
          cases h
      | ok next =>
          rw [hstep] at h
          exact Reads.cons hstep (ih h)

/-- The first of the lines is read, and then the others. -/
theorem Reads.of_cons {raw : List Char} {ls : List (List Char)} (h : r.Reads (raw :: ls) last) :
    ∃ next, r.step raw = .ok next ∧ next.Reads ls last := by
  have hsteps := h 0
  rw [steps] at hsteps
  cases hstep : r.step raw with
  | error fault =>
      rw [hstep] at hsteps
      cases hsteps
  | ok next =>
      rw [hstep] at hsteps
      exact ⟨next, rfl, reads_of_steps hsteps⟩

theorem Reads.of_append {ls ls' : List (List Char)} (h : r.Reads (ls ++ ls') last) :
    ∃ next, r.Reads ls next ∧ next.Reads ls' last := by
  induction ls generalizing r with
  | nil => exact ⟨r, Reads.nil r, h⟩
  | cons raw ls ih =>
      obtain ⟨middle, hstep, hrest⟩ := h.of_cons
      obtain ⟨next, hfront, hback⟩ := ih hrest
      exact ⟨next, Reads.cons hstep hfront, hback⟩

/-- What is read of a text are the sections behind its last line. -/
theorem read_eq_ok_iff {text : List Char} {sections : Sections} :
    read text = .ok sections ↔
      ∃ last, Reading.initial.Reads (lines text) last ∧ last.sections = sections := by
  unfold read
  constructor
  · intro h
    cases hsteps : Reading.initial.steps 1 (lines text) with
    | error fault =>
        rw [hsteps] at h
        cases h
    | ok last =>
        rw [hsteps] at h
        exact ⟨last, reads_of_steps hsteps, Except.ok.inj h⟩
  · rintro ⟨last, hreads, rfl⟩
    rw [hreads 1]
    rfl

variable {sections : Sections} {entries : Entries} {cursor : Cursor}

/-- Lines that go on with a value are put behind it. -/
theorem reads_goingOn {raws : List (List Char)} (hraws : ∀ raw ∈ raws, GoesOn raw)
    (sections : Sections) (entries : Entries) (name key value : List Char) :
    Reads ⟨sections.put name (entries.put key value), .behindEntry name key⟩ raws
      ⟨sections.put name (entries.put key (value ++ raws.flatMap fun raw => '\n' :: trim raw)),
        .behindEntry name key⟩ := by
  induction raws generalizing value with
  | nil => simpa using Reads.nil _
  | cons raw raws ih =>
      obtain ⟨⟨hindented, hidle⟩, hraws⟩ := List.forall_mem_cons.1 hraws
      refine Reads.cons (step_continuation_put hidle hindented rfl sections _) ?_
      have hmore := ih hraws (value ++ '\n' :: trim raw)
      simpa [Table.put_put] using hmore

theorem reads_continuationLines {rest : List (List Char)} (htrim : ∀ line ∈ rest, trim line = line)
    (hne : ∀ line ∈ rest, line ≠ [])
    (hunmarked : ∀ line ∈ rest, ∀ c, line.head? = some c → c ≠ '#' ∧ c ≠ ';')
    (sections : Sections) (entries : Entries) (name key value : List Char) :
    Reads ⟨sections.put name (entries.put key value), .behindEntry name key⟩
      (rest.map continuationLine)
      ⟨sections.put name (entries.put key (value ++ rest.flatMap ('\n' :: ·))),
        .behindEntry name key⟩ := by
  have hraws : ∀ raw ∈ rest.map continuationLine, GoesOn raw := by
    intro raw hraw
    obtain ⟨line, hline, rfl⟩ := List.mem_map.1 hraw
    exact goesOn_continuationLine (htrim line hline) (hne line hline) (hunmarked line hline)
  have hvalue : (rest.map continuationLine).flatMap (fun raw => '\n' :: trim raw) =
      rest.flatMap ('\n' :: ·) := by
    rw [List.flatMap_map, List.flatMap_def, List.flatMap_def]
    exact congrArg List.flatten (List.map_congr_left fun line hline => by
      rw [trim_continuationLine (htrim line hline)])
  rw [← hvalue]
  exact reads_goingOn hraws sections entries name key value

/-- An entry with a new key joins the section that the reader is in. -/
theorem reads_entryLines (hkey : IsKey key) (hvalue : IsValue value)
    (hsection : cursor.section? = some name) (hnew : entries.get? key = none) :
    Reads ⟨sections.put name entries, cursor⟩ (entryLines key value)
      ⟨sections.put name (entries.put key value), .behindEntry name key⟩ := by
  have hlines := head_append_flatMap_pieces '\n' value
  obtain ⟨first, rest, hpieces⟩ := List.exists_cons_of_ne_nil (pieces_ne_nil (· == '\n') value)
  obtain ⟨htrim, hne, hunmarked⟩ := hvalue
  rw [valueLines, hpieces] at htrim hne hunmarked
  rw [hpieces] at hlines
  rw [entryLines, valueLines, hpieces]
  refine Reads.cons (step_entryLine hkey (htrim first List.mem_cons_self) hsection
    (by simpa [entries_mk_put] using hnew)) ?_
  have hmore := reads_continuationLines (fun l hl => htrim l (List.mem_cons_of_mem first hl)) hne
    hunmarked sections entries name key first
  rw [List.headD_cons, List.tail_cons] at hlines
  rw [hlines] at hmore
  simpa [setEntry, entries_mk_put, Table.put_put] using hmore

/-- Entries with new keys join the section that the reader is in, in their order. -/
theorem reads_rows {rows : List (List Char × List Char)}
    (hkey : ∀ row ∈ rows, IsKey row.1) (hvalue : ∀ row ∈ rows, IsValue row.2)
    (hsection : cursor.section? = some name)
    (hdistinct : (Table.mk (entries.rows ++ rows)).Distinct) :
    ∃ cursor', Reads ⟨sections.put name entries, cursor⟩
      (rows.flatMap fun row => entryLines row.1 row.2)
      ⟨sections.put name ⟨entries.rows ++ rows⟩, cursor'⟩ := by
  induction rows generalizing entries cursor with
  | nil =>
      refine ⟨cursor, ?_⟩
      rw [List.append_nil]
      exact Reads.nil _
  | cons row rows ih =>
      have hnew : entries.get? row.1 = none := by
        rw [Table.get?_eq_none_iff]
        rw [Table.Distinct, Table.keys, List.map_append, List.nodup_append] at hdistinct
        exact fun hmem => hdistinct.2.2 _ hmem _ List.mem_cons_self rfl
      have hhere : Reads ⟨sections.put name entries, cursor⟩ (entryLines row.1 row.2)
          ⟨sections.put name ⟨entries.rows ++ [row]⟩, .behindEntry name row.1⟩ := by
        rw [← Table.put_of_get?_eq_none hnew]
        exact reads_entryLines (hkey row List.mem_cons_self) (hvalue row List.mem_cons_self)
          hsection hnew
      have hinside : (Cursor.behindEntry name row.1).section? = some name := rfl
      rw [List.append_cons] at hdistinct ⊢
      obtain ⟨cursor', hmore⟩ := ih (fun r hr => hkey r (List.mem_cons_of_mem row hr))
        (fun r hr => hvalue r (List.mem_cons_of_mem row hr)) hinside hdistinct
      exact ⟨cursor', hhere.append hmore⟩

/-- A section with a new name joins those before it. -/
theorem reads_sectionLines (hkey : ∀ row ∈ entries.rows, IsKey row.1)
    (hvalue : ∀ row ∈ entries.rows, IsValue row.2) (hdistinct : entries.Distinct)
    (hnew : sections.get? name = none) (cursor : Cursor) :
    ∃ cursor', Reads ⟨sections, cursor⟩ (sectionLines name entries)
      ⟨⟨sections.rows ++ [(name, entries)]⟩, cursor'⟩ := by
  have hopen : (Reading.mk sections cursor).openSection name =
      ⟨sections.put name Table.empty, .underHeader name⟩ := by
    simp [openSection, Reading.entries, hnew]
  have hrows : ∃ cursor', Reads ⟨sections.put name Table.empty, .underHeader name⟩
      (entries.rows.flatMap fun row => entryLines row.1 row.2)
      ⟨sections.put name entries, cursor'⟩ := reads_rows hkey hvalue rfl hdistinct
  obtain ⟨cursor', hrows⟩ := hrows
  refine ⟨cursor', Reads.cons ((step_headerLine _ name).trans (congrArg _ hopen)) ?_⟩
  rw [← Table.put_of_get?_eq_none hnew]
  exact hrows

/-- Sections with new names join those before them, in their order. -/
theorem reads_sections {rows : List (List Char × Entries)}
    (hkey : ∀ row ∈ rows, ∀ entry ∈ row.2.rows, IsKey entry.1)
    (hvalue : ∀ row ∈ rows, ∀ entry ∈ row.2.rows, IsValue entry.2)
    (hkeys : ∀ row ∈ rows, row.2.Distinct)
    (hdistinct : (Table.mk (sections.rows ++ rows)).Distinct) (cursor : Cursor) :
    ∃ cursor', Reads ⟨sections, cursor⟩ (rows.flatMap fun row => sectionLines row.1 row.2)
      ⟨⟨sections.rows ++ rows⟩, cursor'⟩ := by
  induction rows generalizing sections cursor with
  | nil =>
      refine ⟨cursor, ?_⟩
      rw [List.append_nil]
      exact Reads.nil _
  | cons row rows ih =>
      have hnew : sections.get? row.1 = none := by
        rw [Table.get?_eq_none_iff]
        rw [Table.Distinct, Table.keys, List.map_append, List.nodup_append] at hdistinct
        exact fun hmem => hdistinct.2.2 _ hmem _ List.mem_cons_self rfl
      obtain ⟨middle, hhere⟩ := reads_sectionLines (hkey row List.mem_cons_self)
        (hvalue row List.mem_cons_self) (hkeys row List.mem_cons_self) hnew cursor
      rw [List.append_cons] at hdistinct ⊢
      obtain ⟨cursor', hmore⟩ := ih (fun r hr => hkey r (List.mem_cons_of_mem row hr))
        (fun r hr => hvalue r (List.mem_cons_of_mem row hr))
        (fun r hr => hkeys r (List.mem_cons_of_mem row hr)) hdistinct middle
      exact ⟨cursor', hhere.append hmore⟩

end Reading

/-! ## All lines -/

/-- Can the line be cut out of a text where it stands with an LF behind it? -/
def IsLine (line : List Char) : Prop := '\n' ∉ line ∧ line.getLast? ≠ some '\r'

theorem isLine_headerLine (hname : IsName name) : IsLine (headerLine name) := by
  refine ⟨fun hmem => hname ?_, (isTrimmed_headerLine name).getLast?_ne (by decide)⟩
  simpa [headerLine] using hmem

/-- A line that is written ends with what is trimmed, or with the blank in front of it. -/
theorem isLine_append {front : List Char} (hfront : '\n' ∉ front) (hline : trim line = line)
    (hlf : '\n' ∉ line) : IsLine (front ++ ' ' :: line) := by
  refine ⟨by simp [hfront, hlf], ?_⟩
  cases line with
  | nil => simp
  | cons c tail =>
      have hlast := (trim_eq_self_iff.1 hline).getLast?_ne (c := '\r') (by decide)
      simpa [List.getLast?_append, List.getLast?_cons_cons] using hlast

theorem isLine_entryLine (hkey : IsKey key) (hfirst : trim first = first) (hlf : '\n' ∉ first) :
    IsLine (entryLine key first) := by
  have hfront : '\n' ∉ key ++ " =".toList := fun hmem => by
    rcases List.mem_append.1 hmem with hmem | hmem
    · exact (hkey.plain _ hmem).1 rfl
    · exact absurd hmem (by decide)
  simpa [entryLine] using isLine_append hfront hfirst hlf

theorem isLine_continuationLine (hline : trim line = line) (hlf : '\n' ∉ line) :
    IsLine (continuationLine line) :=
  have hfront : '\n' ∉ "   ".toList := by decide
  isLine_append hfront hline hlf

theorem isLine_of_mem_entryLines (hkey : IsKey key) (hvalue : IsValue value)
    (h : line ∈ entryLines key value) : IsLine line := by
  have hlf : ∀ l ∈ valueLines value, '\n' ∉ l := fun l hl => not_mem_of_mem_pieces hl
  have htrim := hvalue.trimmed
  obtain ⟨first, rest, hlines⟩ := List.exists_cons_of_ne_nil (pieces_ne_nil (· == '\n') value)
  rw [valueLines, hlines] at htrim hlf
  rw [entryLines, valueLines, hlines] at h
  rcases List.mem_cons.1 h with rfl | h
  · exact isLine_entryLine hkey (htrim first List.mem_cons_self) (hlf first List.mem_cons_self)
  · obtain ⟨l, hl, rfl⟩ := List.mem_map.1 h
    have hl := List.mem_cons_of_mem first hl
    exact isLine_continuationLine (htrim l hl) (hlf l hl)

/-- Sections are read back from what is written, in the order of their rows. -/
theorem read_write {sections : Sections} (hmap : IsMap sections) (hwritable : Writable sections) :
    read (write sections) = .ok sections := by
  have hrow : ∀ row ∈ sections.rows, sections.get? row.1 = some row.2 := fun row hmem =>
    hmap.names.get?_eq_some_iff.2 hmem
  have hentry : ∀ row ∈ sections.rows, ∀ entry ∈ row.2.rows, row.2.get? entry.1 = some entry.2 :=
    fun row hmem entry hentry => (hmap.keys _ _ (hrow row hmem)).get?_eq_some_iff.2 hentry
  have hkey : ∀ row ∈ sections.rows, ∀ entry ∈ row.2.rows, IsKey entry.1 :=
    fun row hmem entry h => hwritable.key _ _ _ _ (hrow row hmem) (hentry row hmem entry h)
  have hvalue : ∀ row ∈ sections.rows, ∀ entry ∈ row.2.rows, IsValue entry.2 :=
    fun row hmem entry h => hwritable.value _ _ _ _ (hrow row hmem) (hentry row hmem entry h)
  have hlines : lines (write sections) =
      sections.rows.flatMap fun row => sectionLines row.1 row.2 := by
    refine lines_flatMap fun line hline => ?_
    obtain ⟨row, hmem, hline⟩ := List.mem_flatMap.1 hline
    rcases List.mem_cons.1 hline with rfl | hline
    · exact isLine_headerLine (hwritable.name _ _ (hrow row hmem))
    · obtain ⟨entry, hmem', hline⟩ := List.mem_flatMap.1 hline
      exact isLine_of_mem_entryLines (hkey row hmem entry hmem') (hvalue row hmem entry hmem') hline
  have hdistinct : (Table.mk (Table.empty.rows ++ sections.rows)).Distinct := hmap.names
  obtain ⟨cursor, hreads⟩ := Reading.reads_sections hkey hvalue
    (fun row hmem => hmap.keys _ _ (hrow row hmem)) hdistinct .outside
  rw [Reading.read_eq_ok_iff, hlines]
  exact ⟨_, hreads, rfl⟩

end BenchSweep.Ini
