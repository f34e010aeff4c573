import BenchSweep.Proofs.Ini.Verdict

/-!
# The values of entries

* `Ini.HasValue` : an entry has as its value what stands behind its delimiter and the lines that go
  on with it.  In a text that obeys the rules a key has one value (`Ini.HasValue.unique`).
* `Ini.Records` : what has been read are the values of the entries.  Every line keeps this
  (`Ini.Records.step`), so that it holds of all that is read from a text (`Ini.read_values`).
-/

namespace BenchSweep.Ini

open Text

/-! ## Values -/

/-- Do the lines hold an entry, parted at its delimiter, with these lines before it and behind it,
in a section of the name? -/
def IsEntry (lines before rest : List Clause) (name left right : List Char) : Prop :=
  ∃ body, lines = before ++ .entry body :: rest ∧ sectionOf before = some name ∧
    Parts body left right

/-- What goes on with the value of an entry among the lines behind it, up to the next entry or
header. -/
def more : List Clause → List (List Char)
  | .ignored :: rest => more rest
  | .continuation body :: rest => body :: more rest
  | _ => []

/-- The value of an entry: what stands behind its delimiter, and each line that goes on with it
behind a newline. -/
def valueOf (right : List Char) (rest : List Clause) : List Char :=
  trim right ++ (more rest).flatMap ('\n' :: ·)

/-- Does an entry with the key, in a section of the name, have the value? -/
def HasValue (lines : List Clause) (name key value : List Char) : Prop :=
  ∃ before rest left right, IsEntry lines before rest name left right ∧ keyOf left = key ∧
    value = valueOf right rest

/-- Does the line leave the entry before it the last one of its section? -/
def Clause.staysBehind : Clause → Bool
  | ignored => true
  | continuation _ => true
  | _ => false

variable {lines before before' rest rest' done : List Clause} {line : Clause}
  {name name' key value value' left left' right right' body raw text : List Char}
  {r next last : Reading} {number : Nat}

theorem hasEntry_iff :
    HasEntry lines name key ↔
      ∃ before rest left right, IsEntry lines before rest name left right ∧ keyOf left = key := by
  constructor
  · rintro ⟨before, body, rest, left, right, heq, hsection, hparts, hkey⟩
    exact ⟨before, rest, left, right, ⟨body, heq, hsection, hparts⟩, hkey⟩
  · rintro ⟨before, rest, left, right, ⟨body, heq, hsection, hparts⟩, hkey⟩
    exact ⟨before, body, rest, left, right, heq, hsection, hparts, hkey⟩

theorem HasValue.hasEntry (h : HasValue lines name key value) : HasEntry lines name key := by
  obtain ⟨before, rest, left, right, hentry, hkey, -⟩ := h
  exact hasEntry_iff.2 ⟨before, rest, left, right, hentry, hkey⟩

theorem HasEntry.exists_value (h : HasEntry lines name key) :
    ∃ value, HasValue lines name key value := by
  obtain ⟨before, rest, left, right, hentry, hkey⟩ := hasEntry_iff.1 h
  exact ⟨_, before, rest, left, right, hentry, hkey, rfl⟩

/-- Of two entries of the same lines the one with more lines before it stands behind the other,
unless they are the same. -/
theorem IsEntry.cases_of_isPrefix (h : IsEntry lines before rest name left right)
    (h' : IsEntry lines before' rest' name' left' right') (hbefore : before <+: before') :
    (rest = rest' ∧ name = name' ∧ left = left' ∧ right = right') ∨
      HasEntry before' name (keyOf left) ∧ ∃ c ∈ rest, ¬ c.staysBehind := by
  obtain ⟨body, rfl, hsection, hparts⟩ := h
  obtain ⟨body', heq, hsection', hparts'⟩ := h'
  obtain ⟨between, rfl⟩ := hbefore
  rw [List.append_assoc] at heq
  have hrest := List.append_cancel_left heq
  cases between with
  | nil =>
      obtain ⟨hbody, rfl⟩ := List.cons.inj hrest
      cases hbody
      obtain ⟨rfl, rfl⟩ := hparts.unique hparts'
      rw [List.append_nil] at hsection'
      exact Or.inl ⟨rfl, Option.some.inj (hsection.symm.trans hsection'), rfl, rfl⟩
  | cons c between =>
      obtain ⟨rfl, rfl⟩ := List.cons.inj hrest
      exact Or.inr ⟨⟨before, body, between, left, right, rfl, hsection, hparts, rfl⟩,
        .entry body', by simp, nofun⟩

/-- Of two entries of the same lines one stands behind the other, unless they are the same. -/
theorem IsEntry.cases (h : IsEntry lines before rest name left right)
    (h' : IsEntry lines before' rest' name' left' right') :
    (rest = rest' ∧ name = name' ∧ left = left' ∧ right = right') ∨
      (HasEntry before' name (keyOf left) ∧ ∃ c ∈ rest, ¬ c.staysBehind) ∨
      (HasEntry before name' (keyOf left') ∧ ∃ c ∈ rest', ¬ c.staysBehind) := by
  have hfront : before <+: lines := by
    obtain ⟨body, rfl, -⟩ := h
    exact List.prefix_append _ _
  have hfront' : before' <+: lines := by
    obtain ⟨body', rfl, -⟩ := h'
    exact List.prefix_append _ _
  rcases List.prefix_or_prefix_of_prefix hfront hfront' with hbefore | hbefore
  · exact (h.cases_of_isPrefix h' hbefore).imp_right Or.inl
  · rcases h'.cases_of_isPrefix h hbefore with ⟨rfl, rfl, rfl, rfl⟩ | hbehind
    · exact Or.inl ⟨rfl, rfl, rfl, rfl⟩
    · exact Or.inr (Or.inr hbehind)

/-- Among lines that obey the rules no entry has the key of another one before it. -/
theorem Obeys.not_hasEntry (hobeys : Obeys lines) (h : IsEntry lines before rest name left right) :
    ¬ HasEntry before name (keyOf left) := by
  obtain ⟨body, heq, hsection, hparts⟩ := h
  exact fun hdup => hobeys before _ rest heq _ (.duplicateKey hparts hsection hdup)

/-- Among lines that obey the rules a section has one entry with a key. -/
theorem IsEntry.unique (hobeys : Obeys lines) (h : IsEntry lines before rest name left right)
    (h' : IsEntry lines before' rest' name left' right') (hkey : keyOf left = keyOf left') :
    before = before' ∧ rest = rest' ∧ right = right' := by
  rcases h.cases h' with ⟨rfl, -, rfl, rfl⟩ | ⟨hdup, -⟩ | ⟨hdup, -⟩
  · obtain ⟨body, heq, -⟩ := h
    obtain ⟨body', heq', -⟩ := h'
    exact ⟨(List.append_inj' (heq.symm.trans heq') rfl).1, rfl, rfl⟩
  · rw [hkey] at hdup
    exact absurd hdup (hobeys.not_hasEntry h')
  · rw [← hkey] at hdup
    exact absurd hdup (hobeys.not_hasEntry h)

/-- Among lines that obey the rules a key has one value. -/
theorem HasValue.unique (hobeys : Obeys lines) (h : HasValue lines name key value)
    (h' : HasValue lines name key value') : value = value' := by
  obtain ⟨before, rest, left, right, hentry, hkey, rfl⟩ := h
  obtain ⟨before', rest', left', right', hentry', hkey', rfl⟩ := h'
  obtain ⟨-, rfl, rfl⟩ := hentry.unique hobeys hentry' (hkey.trans hkey'.symm)
  rfl

/-! ## One line more -/

theorem IsEntry.concat (h : IsEntry lines before rest name left right) (line : Clause) :
    IsEntry (lines ++ [line]) before (rest ++ [line]) name left right := by
  obtain ⟨body, rfl, hentry⟩ := h
  exact ⟨body, by simp, hentry⟩

theorem more_append_of_staysBehind (h : ∀ c ∈ rest, c.staysBehind) (tail : List Clause) :
    more (rest ++ tail) = more rest ++ more tail := by
  induction rest with
  | nil => rfl
  | cons c rest ih =>
      obtain ⟨hc, hrest⟩ := List.forall_mem_cons.1 h
      cases c with
      | ignored => exact ih hrest
      | continuation body => exact congrArg (body :: ·) (ih hrest)
      | header | entry => cases hc

theorem more_append_of_not_staysBehind (h : ∃ c ∈ rest, ¬ c.staysBehind) (tail : List Clause) :
    more (rest ++ tail) = more rest := by
  induction rest with
  | nil => simp at h
  | cons c rest ih =>
      cases c with
      | ignored => exact ih (by simpa [Clause.staysBehind] using h)
      | continuation body =>
          exact congrArg (body :: ·) (ih (by simpa [Clause.staysBehind] using h))
      | header | entry => rfl

theorem more_concat_of_nil (h : more [line] = []) : more (rest ++ [line]) = more rest := by
  by_cases hrest : ∀ c ∈ rest, c.staysBehind
  · rw [more_append_of_staysBehind hrest, h, List.append_nil]
  · exact more_append_of_not_staysBehind (by simpa using hrest) _

/-- A line that goes on with no value leaves all values as they were. -/
theorem HasValue.concat (h : HasValue lines name key value) (hline : more [line] = []) :
    HasValue (lines ++ [line]) name key value := by
  obtain ⟨before, rest, left, right, hentry, hkey, rfl⟩ := h
  refine ⟨before, rest ++ [line], left, right, hentry.concat line, hkey, ?_⟩
  rw [valueOf, valueOf, more_concat_of_nil hline]

theorem valueOf_concat (h : ∀ c ∈ rest, c.staysBehind) (right body : List Char) :
    valueOf right (rest ++ [.continuation body]) = valueOf right rest ++ '\n' :: body := by
  rw [valueOf, valueOf, more_append_of_staysBehind h]
  simp [more]

/-! ## What is read -/

/-- What a statement does that is not refused. -/
theorem Reading.addStatement_ok (h : r.addStatement body = .ok next) :
    (body.head? = some '[' ∧ next = r.openSection body.tail.dropLast) ∨
      body.head? ≠ some '[' ∧ ∃ name left right, r.cursor.section? = some name ∧
        Parts body left right ∧
        next = ⟨r.setEntry name (keyOf left) (trim right), .behindEntry name (keyOf left)⟩ := by
  by_cases hhead : body.head? = some '['
  · obtain ⟨rest, rfl⟩ := List.head?_eq_some_iff.1 hhead
    rw [addStatement_header, headerName?] at h
    split at h
    · next hname =>
        split at hname
        · cases hname
          exact Or.inl ⟨rfl, (Except.ok.inj h).symm⟩
        · cases hname
    · cases h
  · rw [addStatement_entry hhead] at h
    split at h
    · next name hname =>
        rcases parts_or_none body with ⟨left, right, hparts⟩ | hnone
        · rw [keyValue?_of_parts hparts] at h
          split at h
          · cases h
          · simp only [Except.bind, addEntry] at h
            split at h
            · cases h
            · exact Or.inr ⟨hhead, name, left, right, hname, hparts, (Except.ok.inj h).symm⟩
        · rw [keyValue?_of_none hnone] at h
          cases h
    · cases h

/-- What has been read are the values of the entries, and the reader is behind the last one. -/
structure Records (r : Reading) (done : List Clause) : Prop where
  /-- A value that has been read is that of an entry. -/
  values : ∀ name key value, (r.entries name).get? key = some value → HasValue done name key value
  /-- The entry that the reader is behind has no other entry behind it. -/
  last : ∀ name key, r.cursor.entry? = some (name, key) → ∃ before rest left right,
    IsEntry done before rest name left right ∧ keyOf left = key ∧ (∀ c ∈ rest, c.staysBehind) ∧
      (r.entries name).get? key = some (valueOf right rest)

theorem records_initial : Records Reading.initial [] := ⟨nofun, nofun⟩

theorem Records.ignored (h : Records r done) : Records r (done ++ [.ignored]) where
  values name key value hget := (h.values name key value hget).concat rfl
  last name key hcursor := by
    obtain ⟨before, rest, left, right, hentry, hkey, hrest, hget⟩ := h.last name key hcursor
    refine ⟨before, rest ++ [.ignored], left, right, hentry.concat _, hkey, ?_, ?_⟩
    · exact List.forall_mem_append.2 ⟨hrest, List.forall_mem_singleton.2 rfl⟩
    · rwa [valueOf, more_concat_of_nil rfl]

theorem Records.header (h : Records r done) (body : List Char) :
    Records (r.openSection body.tail.dropLast) (done ++ [.header body]) where
  values name key value hget := by
    refine (h.values name key value ?_).concat rfl
    rw [Reading.openSection, Reading.entries_mk_put] at hget
    split at hget
    · next heq => rwa [heq] at hget
    · exact hget
  last := nofun

/-- An entry has its value from its own line. -/
theorem Records.entry (h : Records r done) (hparts : Parts body left right)
    (hsection : sectionOf done = some name) :
    Records ⟨r.setEntry name (keyOf left) (trim right), .behindEntry name (keyOf left)⟩
      (done ++ [.entry body]) := by
  have hentry : IsEntry (done ++ [.entry body]) done [] name left right :=
    ⟨body, rfl, hsection, hparts⟩
  have hvalue : valueOf right [] = trim right := List.append_nil _
  refine ⟨fun other k value hget => ?_, fun other k hcursor => ?_⟩
  · rw [Reading.setEntry, Reading.entries_mk_put] at hget
    split at hget
    · next heq =>
        subst heq
        rw [Table.get?_put] at hget
        split at hget
        · next hk =>
            cases hget
            exact ⟨done, [], left, right, hentry, hk, hvalue.symm⟩
        · exact (h.values name k value hget).concat rfl
    · exact (h.values other k value hget).concat rfl
  · cases hcursor
    refine ⟨done, [], left, right, hentry, rfl, by simp, ?_⟩
    rw [Reading.setEntry, Reading.entries_mk_put, if_pos rfl, Table.get?_put_self, hvalue]

/-- A line that goes on with a value goes on with that of the last entry, and no other. -/
theorem Records.continuation (h : Records r done) (hcursor : r.cursor.entry? = some (name, key)) :
    Records (r.continueEntry name key body) (done ++ [.continuation body]) := by
  obtain ⟨before, rest, left, right, hentry, hkey, hrest, hget⟩ := h.last name key hcursor
  have hentry' := hentry.concat (.continuation body)
  have hvalue := valueOf_concat hrest right body
  have hnext : r.continueEntry name key body =
      ⟨r.setEntry name key (valueOf right rest ++ '\n' :: body), r.cursor⟩ := by
    rw [Reading.continueEntry, hget]
  rw [hnext]
  refine ⟨fun other k value hk => ?_, fun other k hcursor' => ?_⟩
  · by_cases hsame : name = other ∧ key = k
    · obtain ⟨rfl, rfl⟩ := hsame
      rw [Reading.setEntry, Reading.entries_mk_put, if_pos rfl, Table.get?_put_self] at hk
      cases hk
      exact ⟨before, _, left, right, hentry', hkey, hvalue.symm⟩
    · have hold : (r.entries other).get? k = some value := by
        rw [Reading.setEntry, Reading.entries_mk_put] at hk
        split at hk
        · next heq =>
            subst heq
            rwa [Table.get?_put_ne _ _ fun heq => hsame ⟨rfl, heq⟩] at hk
        · exact hk
      obtain ⟨before', rest', left', right', hother, hkey', rfl⟩ := h.values other k value hold
      refine ⟨before', _, left', right', hother.concat _, hkey', ?_⟩
      -- the entry is not the last one, so that its value has come to an end
      have hended : ∃ c ∈ rest', ¬ c.staysBehind := by
        rcases hentry.cases hother with ⟨-, rfl, rfl, -⟩ | ⟨-, c, hc, hstays⟩ | ⟨-, hended⟩
        · exact absurd ⟨rfl, hkey.symm.trans hkey'⟩ hsame
        · exact absurd (hrest c hc) hstays
        · exact hended
      rw [valueOf, valueOf, more_append_of_not_staysBehind hended]
  · obtain ⟨rfl, rfl⟩ := Prod.mk.inj (Option.some.inj (hcursor.symm.trans hcursor'))
    refine ⟨before, _, left, right, hentry', hkey, ?_, ?_⟩
    · exact List.forall_mem_append.2 ⟨hrest, List.forall_mem_singleton.2 rfl⟩
    · rw [Reading.setEntry, Reading.entries_mk_put, if_pos rfl, Table.get?_put_self, hvalue]

/-- A line that is taken leaves the values of the entries behind. -/
theorem Records.step (h : Records r done) (hagrees : Agrees r done)
    (hstep : r.step raw = .ok next) : Records next (done ++ [clause done raw]) := by
  rcases clause_cases done raw with ⟨hidle, hclause⟩ | ⟨hidle, hraw, hmore, hclause⟩ |
    ⟨hidle, hraw, hclause⟩
  · rw [Reading.step_of_idle hidle] at hstep
    cases hstep
    exact hclause ▸ h.ignored
  · obtain ⟨⟨name, key⟩, hcursor⟩ := Option.isSome_iff_exists.1 (hagrees.behind.trans hmore)
    rw [Reading.step_of_continuation hidle hraw hcursor] at hstep
    cases hstep
    exact hclause ▸ h.continuation hcursor
  · have hcursor : isIndented raw = false ∨ r.cursor.entry? = none :=
      hraw.imp_right fun hmore => by simpa [← hagrees.behind] using hmore
    rw [Reading.step_of_statement hidle hcursor] at hstep
    rcases Reading.addStatement_ok hstep with ⟨hhead, rfl⟩ |
      ⟨hhead, name, left, right, hsection, hparts, rfl⟩
    · rw [hclause, if_pos hhead]
      exact h.header (trim raw)
    · rw [hclause, if_neg hhead]
      exact h.entry hparts (hagrees.inside ▸ hsection)

/-! ## All lines -/

theorem Records.steps (h : Records r done) (hagrees : Agrees r done) {ls : List (List Char)}
    (hsteps : r.steps number ls = .ok last) :
    Agrees last (done ++ clausesAfter done ls) ∧ Records last (done ++ clausesAfter done ls) := by
  induction ls generalizing r done number with
  | nil =>
      cases hsteps
      rw [clausesAfter, List.append_nil]
      exact ⟨hagrees, h⟩
  | cons raw rest ih =>
      rw [Reading.steps] at hsteps
      rw [clausesAfter, List.append_cons]
      rcases hagrees.step raw with ⟨next, hstep, hnext, -⟩ | ⟨fault, hstep, -⟩
      · rw [hstep] at hsteps
        exact ih (h.step hagrees hstep) hnext hsteps
      · rw [hstep] at hsteps
        cases hsteps

/-- What is read from a text are the values of its entries. -/
theorem read_values {sections : Sections} (h : read text = .ok sections) :
    ((sections.get? name).getD Table.empty).get? key = some value ↔
      HasValue (clauses (Text.lines text)) name key value := by
  have hobeys := ((exists_read_ok_iff text).1 ⟨sections, h⟩).obeys
  rw [read] at h
  cases hsteps : Reading.initial.steps 1 (Text.lines text) with
  | error fault => simp [hsteps, Except.map] at h
  | ok last =>
      rw [hsteps] at h
      obtain rfl : last.sections = sections := Except.ok.inj h
      obtain ⟨hagrees, hrecords⟩ := records_initial.steps agrees_initial hsteps
      refine ⟨hrecords.values name key value, fun hvalue => ?_⟩
      obtain ⟨value', hget⟩ := Option.isSome_iff_exists.1 ((hagrees.keys _ _).2 hvalue.hasEntry)
      rwa [← (hrecords.values name key value' hget).unique hobeys hvalue]

end BenchSweep.Ini
