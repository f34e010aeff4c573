import BenchSweep.Proofs.Ini.Writing

/-!
# Reading and writing are inverse

* `Ini.Sound` : what has been read can be written.  Every line keeps this (`Ini.Sound.step`), so
  that it holds of all that is read from a text (`Ini.writable_of_read`).
* `Ini.reading_inverts_writing` : what is written is read back, and so is what was read from any
  text when it is written again, in whatever order.
-/

namespace BenchSweep.Ini

open Text

variable {name key value body left right raw : List Char} {r next : Reading} {cursor : Cursor}
  {entries : Entries} {sections other : Sections}

/-! ## Keys and values that are read -/

/-- Lower case puts no blank at an end. -/
theorem isTrimmed_lowercase {s : List Char} (h : IsTrimmed s) : IsTrimmed (lowercase s) := by
  have hmeaning {c : Char} (hc : isBlank c = true) : isMeaning c = true := by
    simp [isMeaning, hc]
  refine ⟨fun c hc => Bool.eq_false_iff.2 fun hblank => ?_,
    fun c hc => Bool.eq_false_iff.2 fun hblank => ?_⟩
  · exact Bool.eq_false_iff.1 (h.head c (head?_of_lowercase hc (hmeaning hblank))) hblank
  · exact Bool.eq_false_iff.1 (h.last c (getLast?_of_lowercase hc (hmeaning hblank))) hblank

/-- What stands in front of the delimiter of an entry is read as a key that can be written. -/
theorem isKey_keyOf (hparts : Parts (trim raw) left right) (hlf : '\n' ∉ raw)
    (hidle : isIdle (trim raw) = false) (hbracket : (trim raw).head? ≠ some '[')
    (hkey : trim left ≠ []) : IsKey (keyOf left) := by
  obtain ⟨d, hraw, -, hleft⟩ := hparts
  obtain ⟨-, hhash, hsemicolon⟩ := isIdle_eq_false_iff.1 hidle
  have hlfleft : '\n' ∉ left := fun hmem => hlf (mem_of_mem_trim (by rw [hraw]; simp [hmem]))
  -- the line does not start with a blank, so that its key starts where the line does
  have hhead : (trim left).head? = (trim raw).head? := by
    have htrimmed := isTrimmed_trim raw
    rw [hraw] at htrimmed ⊢
    exact head?_trim_of_isTrimmed_append htrimmed hkey
  refine ⟨mt lowercase_eq_nil_iff.1 hkey, (isTrimmed_lowercase (isTrimmed_trim left)).trim,
    lowercase_lowercase _, ?_, ?_⟩
  · intro c hc
    have hthere : isMeaning c = true → c ∈ left := fun h =>
      mem_of_mem_trim (mem_of_mem_lowercase hc h)
    refine ⟨?_, ?_, ?_⟩
    · rintro rfl
      exact hlfleft (hthere (by decide))
    · rintro rfl
      exact (hleft _ (hthere (by decide))).1 rfl
    · rintro rfl
      exact (hleft _ (hthere (by decide))).2 rfl
  · intro c hc
    have hthere : isMeaning c = true → (trim raw).head? = some c := fun h =>
      hhead ▸ head?_of_lowercase hc h
    refine ⟨?_, ?_, ?_⟩
    · rintro rfl
      exact hbracket (hthere (by decide))
    · rintro rfl
      exact hhash (hthere (by decide))
    · rintro rfl
      exact hsemicolon (hthere (by decide))

theorem valueLines_of_not_mem (hlf : '\n' ∉ value) : valueLines value = [value] :=
  pieces_eq_singleton fun c hc => by
    simp only [beq_eq_false_iff_ne]
    rintro rfl
    exact hlf hc

/-- What stands behind the delimiter of an entry is read as a value that can be written. -/
theorem isValue_trim (hlf : '\n' ∉ right) : IsValue (trim right) := by
  have hlines := valueLines_of_not_mem (mt mem_of_mem_trim hlf)
  constructor <;> simp [hlines]

theorem valueLines_append (hlf : '\n' ∉ body) (value : List Char) :
    valueLines (value ++ '\n' :: body) = valueLines value ++ [body] := by
  induction value with
  | nil =>
      rw [List.nil_append, valueLines, pieces, if_pos (by rfl), ← valueLines,
        valueLines_of_not_mem hlf]
      rfl
  | cons c value ih =>
      rw [valueLines] at ih ⊢
      rw [valueLines, List.cons_append, pieces, pieces, ih]
      split
      · rfl
      · obtain ⟨w, ws, hws⟩ := List.exists_cons_of_ne_nil (pieces_ne_nil (· == '\n') value)
        rw [valueLines, hws]
        rfl

/-- A value that can be written can go on with a line. -/
theorem IsValue.append (h : IsValue value) (hlf : '\n' ∉ raw) (hidle : isIdle (trim raw) = false) :
    IsValue (value ++ '\n' :: trim raw) := by
  have hlines := valueLines_append (fun hmem => hlf (mem_of_mem_trim hmem)) value
  have htail : (valueLines value ++ [trim raw]).tail = (valueLines value).tail ++ [trim raw] :=
    List.tail_append_of_ne_nil (pieces_ne_nil _ value)
  obtain ⟨hne, hhash, hsemicolon⟩ := isIdle_eq_false_iff.1 hidle
  refine ⟨?_, ?_, ?_⟩
  · rw [hlines, List.forall_mem_append, List.forall_mem_singleton]
    exact ⟨h.trimmed, trim_trim raw⟩
  · rw [hlines, htail, List.forall_mem_append, List.forall_mem_singleton]
    exact ⟨h.ne_nil, hne⟩
  · rw [hlines, htail, List.forall_mem_append, List.forall_mem_singleton]
    refine ⟨h.unmarked, fun c hc => ⟨?_, ?_⟩⟩
    · rintro rfl
      exact hhash hc
    · rintro rfl
      exact hsemicolon hc

/-! ## Sections that are read -/

/-- Can what has been read be written? -/
structure Sound (r : Reading) : Prop where
  isMap : IsMap r.sections
  writable : Writable r.sections
  inside : ∀ name, r.cursor.section? = some name → IsName name

theorem sound_initial : Sound Reading.initial where
  isMap := ⟨Table.distinct_empty, nofun⟩
  writable := ⟨nofun, nofun, nofun⟩
  inside := nofun

theorem Sound.distinct_entries (h : Sound r) (name : List Char) : (r.entries name).Distinct := by
  rw [Reading.entries]
  cases hget : r.sections.get? name with
  | none => exact Table.distinct_empty
  | some entries => exact h.isMap.keys name entries hget

theorem Sound.isKey_and_isValue (h : Sound r) (hget : (r.entries name).get? key = some value) :
    IsKey key ∧ IsValue value := by
  rw [Reading.entries] at hget
  cases hname : r.sections.get? name with
  | none => simp [hname] at hget
  | some entries =>
      rw [hname, Option.getD_some] at hget
      exact ⟨h.writable.key name entries key value hname hget,
        h.writable.value name entries key value hname hget⟩

/-- The entries of a section can be set to some that can be written. -/
theorem Sound.put (h : Sound r) (hname : IsName name) (hdistinct : entries.Distinct)
    (hentries : ∀ key value, entries.get? key = some value → IsKey key ∧ IsValue value)
    (hcursor : cursor.section? = some name) : Sound ⟨r.sections.put name entries, cursor⟩ where
  isMap := by
    refine ⟨h.isMap.names.put name entries, fun other set hget => ?_⟩
    rw [Table.get?_put] at hget
    split at hget
    · cases hget
      exact hdistinct
    · exact h.isMap.keys other set hget
  writable := by
    refine ⟨fun other set hget => ?_, fun other set key value hget hkey => ?_,
      fun other set key value hget hkey => ?_⟩
    all_goals
      rw [Table.get?_put] at hget
      split at hget
    · next heq => exact heq ▸ hname
    · exact h.writable.name other set hget
    · cases hget
      exact (hentries key value hkey).1
    · exact h.writable.key other set key value hget hkey
    · cases hget
      exact (hentries key value hkey).2
    · exact h.writable.value other set key value hget hkey
  inside other hother := by
    cases hcursor.symm.trans hother
    exact hname

theorem Sound.setEntry (h : Sound r) (hname : IsName name) (hkey : IsKey key)
    (hvalue : IsValue value) (hcursor : cursor.section? = some name) :
    Sound ⟨r.setEntry name key value, cursor⟩ := by
  refine h.put hname ((h.distinct_entries name).put key value) (fun k v hget => ?_) hcursor
  rw [Table.get?_put] at hget
  split at hget
  · next heq =>
      cases hget
      exact ⟨heq ▸ hkey, hvalue⟩
  · exact h.isKey_and_isValue hget

theorem Sound.continueEntry (h : Sound r) (hlf : '\n' ∉ raw) (hidle : isIdle (trim raw) = false)
    (hcursor : r.cursor.entry? = some (name, key)) :
    Sound (r.continueEntry name key (trim raw)) := by
  have hsection : r.cursor.section? = some name := by
    cases hr : r.cursor <;> simp_all [Cursor.entry?, Cursor.section?]
  rw [Reading.continueEntry]
  split
  · next value hget =>
      obtain ⟨hkey, hvalue⟩ := h.isKey_and_isValue hget
      exact h.setEntry (h.inside name hsection) hkey (hvalue.append hlf hidle) hsection
  · exact h

theorem Sound.addStatement (h : Sound r) (hlf : '\n' ∉ raw) (hidle : isIdle (trim raw) = false)
    (hadd : r.addStatement (trim raw) = .ok next) : Sound next := by
  by_cases hbracket : (trim raw).head? = some '['
  · obtain ⟨rest, hraw⟩ := List.head?_eq_some_iff.1 hbracket
    rw [hraw, Reading.addStatement_header, headerName?] at hadd
    split at hadd
    · next name hname =>
        cases hadd
        split at hname
        · cases hname
          have hrest : IsName rest.dropLast := fun hmem => hlf (mem_of_mem_trim (by
            rw [hraw]
            exact List.mem_cons_of_mem _ ((List.dropLast_subset rest) hmem)))
          exact h.put hrest (h.distinct_entries _) (fun _ _ => h.isKey_and_isValue) rfl
        · cases hname
    · cases hadd
  · rw [Reading.addStatement_entry hbracket] at hadd
    split at hadd
    · next name hsection =>
        rcases parts_or_none (trim raw) with ⟨left, right, hparts⟩ | hnone
        · rw [keyValue?_of_parts hparts] at hadd
          split at hadd
          · cases hadd
          · next hkey =>
              simp only [Except.bind, Reading.addEntry] at hadd
              split at hadd
              · cases hadd
              · cases hadd
                have hright : '\n' ∉ right := fun hmem => hlf (mem_of_mem_trim (by
                  obtain ⟨d, hraw, -⟩ := hparts
                  rw [hraw]
                  simp [hmem]))
                exact h.setEntry (h.inside name hsection)
                  (isKey_keyOf hparts hlf hidle hbracket hkey) (isValue_trim hright) rfl
        · rw [keyValue?_of_none hnone] at hadd
          cases hadd
    · cases hadd

/-- What is read of a line can be written. -/
theorem Sound.step (h : Sound r) (hlf : '\n' ∉ raw) (hstep : r.step raw = .ok next) :
    Sound next := by
  cases hidle : isIdle (trim raw) with
  | true =>
      rw [Reading.step_of_idle hidle] at hstep
      cases hstep
      exact h
  | false =>
      by_cases hmore : isIndented raw = true ∧ r.cursor.entry?.isSome = true
      · obtain ⟨hraw, hsome⟩ := hmore
        obtain ⟨⟨name, key⟩, hcursor⟩ := Option.isSome_iff_exists.1 hsome
        rw [Reading.step_of_continuation hidle hraw hcursor] at hstep
        cases hstep
        exact h.continueEntry hlf hidle hcursor
      · have hstatement : isIndented raw = false ∨ r.cursor.entry? = none := by
          simpa using Decidable.not_and_iff_or_not.1 hmore
        rw [Reading.step_of_statement hidle hstatement] at hstep
        exact h.addStatement hlf hidle hstep

theorem Sound.steps {last : Reading} {ls : List (List Char)} {number : Nat} (h : Sound r)
    (hlf : ∀ line ∈ ls, '\n' ∉ line) (hsteps : r.steps number ls = .ok last) : Sound last := by
  induction ls generalizing r number with
  | nil =>
      cases hsteps
      exact h
  | cons raw ls ih =>
      rw [Reading.steps] at hsteps
      split at hsteps
      · next next hstep =>
          exact ih (h.step (hlf raw List.mem_cons_self) hstep)
            (fun line hline => hlf line (List.mem_cons_of_mem raw hline)) hsteps
      · cases hsteps

/-- What is read from a text can be written. -/
theorem writable_of_read {text : List Char} (h : read text = .ok sections) :
    IsMap sections ∧ Writable sections := by
  rw [read] at h
  cases hsteps : Reading.initial.steps 1 (lines text) with
  | error fault => simp [hsteps, Except.map] at h
  | ok last =>
      rw [hsteps] at h
      cases h
      have hlast := sound_initial.steps (fun line => newline_not_mem_of_mem_lines) hsteps
      exact ⟨hlast.isMap, hlast.writable⟩

/-! ## There and back -/

theorem Same.exists_get? (h : Same other sections) (hget : other.get? name = some entries) :
    ∃ set, sections.get? name = some set ∧ entries.get? = set.get? := by
  have hname := h name
  rw [hget] at hname
  obtain ⟨set, hset, heq⟩ := Option.map_eq_some_iff.1 hname.symm
  exact ⟨set, hset, heq.symm⟩

/-- Whether sections can be written does not depend on the order of their rows. -/
theorem Writable.of_same (h : Writable sections) (hsame : Same other sections) :
    Writable other where
  name name entries hget := by
    obtain ⟨set, hset, -⟩ := hsame.exists_get? hget
    exact h.name name set hset
  key name entries key value hget hkey := by
    obtain ⟨set, hset, heq⟩ := hsame.exists_get? hget
    exact h.key name set key value hset (heq ▸ hkey)
  value name entries key value hget hkey := by
    obtain ⟨set, hset, heq⟩ := hsame.exists_get? hget
    exact h.value name set key value hset (heq ▸ hkey)

/-- Sections that can be written are read back, in whatever order they and their entries are
written.  What is read from any text can be written. -/
theorem reading_inverts_writing :
    (∀ sections, Writable sections → ∀ other, IsMap other → Same other sections →
        read (write other) = .ok other) ∧
      ∀ text sections, read text = .ok sections → IsMap sections ∧
        ∀ other, IsMap other → Same other sections → read (write other) = .ok other := by
  refine ⟨fun sections h other hmap hsame => read_write hmap (h.of_same hsame),
    fun text sections hread => ?_⟩
  obtain ⟨hmap, hwritable⟩ := writable_of_read hread
  exact ⟨hmap, fun other hother hsame => read_write hother (hwritable.of_same hsame)⟩

/-- Two entries with marks and delimiters in them, and a value of two lines. -/
def markedEntries : Entries := ⟨[("k [1]".toList, "; x\n[y] = z".toList), ("v;".toList, [])]⟩

/-- Sections with these entries and with none. -/
def markedSections : Sections := ⟨[("a]=[b".toList, markedEntries), ([], ⟨[]⟩)]⟩

/-- The same sections and entries in another order. -/
def turnedSections : Sections :=
  ⟨[([], ⟨[]⟩), ("a]=[b".toList, ⟨markedEntries.rows.reverse⟩)]⟩

/-- Marks and delimiters may stand in names, keys and values, and the order does not matter. -/
theorem reading_inverts_writing_marked :
    Writable markedSections ∧ IsMap turnedSections ∧ Same turnedSections markedSections ∧
      read (write turnedSections) = .ok turnedSections ∧
      read (write markedSections) = .ok markedSections := by
  obtain ⟨hthere, hback⟩ := reading_inverts_writing
  have hmarked : read "[a]=[b]\nk [1] = ; x\n    [y] = z\nv; =\n[]\n".toList =
      .ok markedSections := by decide +kernel
  have hturned : read "[]\n[a]=[b]\nv; =\nk [1] = ; x\n\t[y] = z\n".toList =
      .ok turnedSections := by decide +kernel
  obtain ⟨hmap, hwritable⟩ := writable_of_read hmarked
  have hentries : markedEntries.Distinct := hmap.keys "a]=[b".toList markedEntries rfl
  have hsame : Same turnedSections markedSections := by
    intro name
    have hrows : turnedSections.get? = Table.get? ⟨turnedSections.rows.reverse⟩ :=
      (hback _ _ hturned).1.names.get?_eq_of_perm (List.reverse_perm _).symm
    rw [hrows]
    show (Table.find name [("a]=[b".toList, _), ([], _)]).map Table.get? =
      (Table.find name [("a]=[b".toList, _), ([], _)]).map Table.get?
    by_cases hname : "a]=[b".toList = name
    · rw [Table.find, if_pos hname, Table.find, if_pos hname]
      exact congrArg some (hentries.get?_eq_of_perm (List.reverse_perm _).symm).symm
    · simp only [Table.find, if_neg hname]
  exact ⟨hwritable, (hback _ _ hturned).1, hsame,
    hthere _ hwritable _ (hback _ _ hturned).1 hsame, (hback _ _ hmarked).2 _ hmap fun _ => rfl⟩

end BenchSweep.Ini
