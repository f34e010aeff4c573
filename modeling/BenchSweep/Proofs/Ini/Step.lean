import Mathlib.Data.List.TakeDrop
import BenchSweep.Proofs.Ini.Grammar
import BenchSweep.Proofs.Table

/-!
# What a line does to what has been read

One equation for each kind of line.

* `Ini.keyValue?_of_parts`, `Ini.keyValue?_of_none` : what an entry says.
* `Ini.Reading.step_of_idle`, `Ini.Reading.step_of_continuation`,
  `Ini.Reading.step_of_statement` : an ignored line, one that goes on with a value, and the rest.
* `Ini.Reading.addStatement_header`, `Ini.Reading.addStatement_entry` : the rest are headers and
  entries.
* `Ini.Reading.entries_mk_put` : the entries of the sections when those of one are set.
* `Ini.Reading.step_continuation_put`, `Ini.Reading.step_entry_put` : a line in a section changes
  the entries of that section only.
-/

namespace BenchSweep.Ini

open Text

variable {body left right raw : List Char} {name key value : List Char}

/-! ## Entries -/

theorem isIdle_iff {text : List Char} :
    isIdle text = true ↔ text = [] ∨ text.head? = some '#' ∨ text.head? = some ';' := by
  cases text <;> simp [isIdle]

theorem isIdle_eq_false_iff {text : List Char} :
    isIdle text = false ↔ text ≠ [] ∧ text.head? ≠ some '#' ∧ text.head? ≠ some ';' := by
  rw [← Bool.not_eq_true, isIdle_iff, not_or, not_or]

theorem isDelimiter_iff {c : Char} : isDelimiter c = true ↔ c = '=' ∨ c = ':' := by
  simp [isDelimiter]

/-- An entry is parted at its first delimiter. -/
theorem keyValue?_of_parts (h : Parts body left right) :
    keyValue? body = if trim left = [] then .error .emptyKey else .ok (keyOf left, trim right) := by
  obtain ⟨d, rfl, hd, hleft⟩ := h
  have hnot : ∀ c ∈ left, (!isDelimiter c) = true := fun c hc => by
    simpa [isDelimiter] using hleft c hc
  have hhere : ¬ (!isDelimiter d) = true := by simpa using isDelimiter_iff.2 hd
  have hspan : (left ++ d :: right).span (!isDelimiter ·) = (left, d :: right) := by
    rw [List.span_eq_takeWhile_dropWhile, List.takeWhile_append_of_pos hnot,
      List.dropWhile_append_of_pos hnot, List.takeWhile_cons_of_neg (p := (!isDelimiter ·)) hhere,
      List.dropWhile_cons_of_neg (p := (!isDelimiter ·)) hhere, List.append_nil]
  simp only [keyValue?, hspan, keyOf, lowercase_eq_nil_iff]

/-- Without a delimiter there is no entry. -/
theorem keyValue?_of_none (h : ∀ c ∈ body, c ≠ '=' ∧ c ≠ ':') :
    keyValue? body = .error .missingDelimiter := by
  have hnot : ∀ c ∈ body, (!isDelimiter c) = true := fun c hc => by
    simpa [isDelimiter] using h c hc
  have hspan : body.span (!isDelimiter ·) = (body, []) := by
    rw [List.span_eq_takeWhile_dropWhile, ← List.append_nil body,
      List.takeWhile_append_of_pos hnot, List.dropWhile_append_of_pos hnot]
    rfl
  simp only [keyValue?, hspan]

/-! ## Lines -/

namespace Reading

variable {r : Reading}

/-- An ignored line changes nothing. -/
theorem step_of_idle (h : isIdle (trim raw) = true) : r.step raw = .ok r := by
  rw [step, Line.ofChars, if_pos h]

/-- An indented line goes on with the value of the entry that the reader is behind. -/
theorem step_of_continuation (h : isIdle (trim raw) = false) (hraw : isIndented raw = true)
    (hcursor : r.cursor.entry? = some (name, key)) :
    r.step raw = .ok (r.continueEntry name key (trim raw)) := by
  rw [step, Line.ofChars, if_neg (by simp [h]), hraw, hcursor]

/-- Any other line is a statement. -/
theorem step_of_statement (h : isIdle (trim raw) = false)
    (hraw : isIndented raw = false ∨ r.cursor.entry? = none) :
    r.step raw = r.addStatement (trim raw) := by
  rw [step, Line.ofChars, if_neg (by simp [h])]
  rcases hraw with hraw | hcursor
  · rw [hraw]
  · rw [hcursor]
    cases isIndented raw <;> rfl

/-- A header opens the section that its brackets name. -/
theorem addStatement_header (rest : List Char) :
    r.addStatement ('[' :: rest) =
      match headerName? rest with
      | some name => .ok (r.openSection name)
      | none => .error .unterminatedHeader := by
  rw [addStatement, Statement.ofBody]
  cases headerName? rest <;> rfl

/-- Any other statement is an entry of the section that the reader is in. -/
theorem addStatement_entry (h : body.head? ≠ some '[') :
    r.addStatement body =
      match r.cursor.section? with
      | some name => (keyValue? body).bind fun (key, value) => r.addEntry name key value
      | none => .error .keyOutsideSection := by
  have hbody : Statement.ofBody r.cursor.section?.isSome body =
      if !r.cursor.section?.isSome then .error .keyOutsideSection
      else (keyValue? body).map fun (key, value) => .entry key value := by
    rw [Statement.ofBody]
    rintro rest rfl
    exact h rfl
  rw [addStatement, hbody]
  cases r.cursor.section? with
  | none => rfl
  | some name => cases keyValue? body <;> rfl

/-! ## Sections -/

/-- The entries of a section when those of one are set. -/
theorem entries_mk_put (sections : Sections) (cursor : Cursor) (name other : List Char)
    (set : Entries) :
    Reading.entries ⟨sections.put name set, cursor⟩ other =
      if name = other then set else (sections.get? other).getD Table.empty := by
  by_cases hother : name = other
  · subst hother
    simp [entries]
  · simp [entries, Table.get?_put_ne _ _ hother, hother]

variable {sections : Sections} {entries : Entries} {cursor : Cursor}

/-- In a section an indented line behind an entry changes the value of this entry. -/
theorem step_continuation_put (h : isIdle (trim raw) = false) (hraw : isIndented raw = true)
    (hcursor : cursor.entry? = some (name, key)) (sections : Sections) (entries : Entries) :
    step ⟨sections.put name entries, cursor⟩ raw =
      .ok ⟨sections.put name ((entries.get? key).elim entries fun value =>
        entries.put key (value ++ '\n' :: trim raw)), cursor⟩ := by
  rw [step_of_continuation h hraw hcursor, continueEntry, entries_mk_put, if_pos rfl]
  cases entries.get? key with
  | none => rfl
  | some value => simp only [setEntry, entries_mk_put, if_pos, Table.put_put, Option.elim]

/-- In a section an entry joins the others. -/
theorem step_entry_put (h : isIdle (trim raw) = false)
    (hraw : isIndented raw = false ∨ cursor.entry? = none) (hhead : (trim raw).head? ≠ some '[')
    (hsection : cursor.section? = some name) (sections : Sections) (entries : Entries) :
    step ⟨sections.put name entries, cursor⟩ raw =
      (keyValue? (trim raw)).bind fun entry =>
        if (entries.get? entry.1).isSome then .error (.duplicateKey (String.ofList entry.1))
        else .ok ⟨sections.put name (entries.put entry.1 entry.2), .behindEntry name entry.1⟩ := by
  rw [step_of_statement h hraw, addStatement_entry hhead, hsection]
  simp only [addEntry, setEntry, entries_mk_put, if_pos, Table.put_put]

end Reading

end BenchSweep.Ini
