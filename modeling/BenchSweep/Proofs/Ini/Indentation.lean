import BenchSweep.Proofs.Ini.Sections

/-!
# Indented keys

What becomes of a text in which no entry is indented when all keys of a section are, by the same
blanks.

* `Ini.indentKeys` : the lines with the keys of the section indented.
* `Ini.swallow` : of such entries only the first behind a header is one.  The others go on with its
  value (`Ini.clausesAfter_indentKeys`).
* `Ini.hasValue_swallow_iff` : the values that the section is left with.
* `Recipe.parse_indented` : the recipe stays the same if the section is not `DEFAULT`, or if no two
  of its keys stand below one header.  Otherwise the time limit is lost as soon as it stands below a
  header with another key.
-/

namespace BenchSweep.Ini

open Text

/-! ## Indenting -/

/-- Is the nearest line before another one, of those that are not ignored, a part of an entry? -/
def Follows (before : List Clause) : Prop := (nearest? before).any Clause.takesMore = true

instance (before : List Clause) : Decidable (Follows before) := inferInstanceAs (Decidable (_ = _))

/-- A line behind others, indented if it is an entry of the section. -/
def indentKey (name indent : List Char) (before : List Clause) (raw : List Char) : List Char :=
  match clause before raw with
  | .entry _ => if sectionOf before = some name then indent ++ raw else raw
  | _ => raw

/-- Lines behind others, with the entries of the section indented. -/
def indentKeys (name indent : List Char) (before : List Clause) :
    List (List Char) → List (List Char)
  | [] => []
  | raw :: rest =>
    indentKey name indent before raw :: indentKeys name indent (before ++ [clause before raw]) rest

/-- An entry of the section that follows another one goes on with that one's value. -/
def Clause.swallowed (name : List Char) (before : List Clause) : Clause → Clause
  | entry body =>
    if sectionOf before = some name ∧ Follows before then continuation body else entry body
  | line => line

/-- Lines behind others, with the entries of the section that follow another one going on with that
one's value. -/
def swallow (name : List Char) (before : List Clause) : List Clause → List Clause
  | [] => []
  | line :: rest => line.swallowed name before :: swallow name (before ++ [line]) rest

/-- The entries among lines, up to the next header. -/
def following : List Clause → List (List Char)
  | [] => []
  | .header _ :: _ => []
  | .entry body :: rest => body :: following rest
  | _ :: rest => following rest

variable {name other indent raw key value left right body : List Char} {ls : List (List Char)}
  {cs cs' before before' done done' rest rest' : List Clause} {line line' : Clause}
  {fault : SyntaxFault}

/-! ## Lines that are indented -/

theorem any_takesMore_concat (before : List Clause) (line : Clause) :
    (nearest? (before ++ [line])).any Clause.takesMore =
      if line.isIgnored then (nearest? before).any Clause.takesMore else line.takesMore := by
  rw [nearest?_concat]
  split <;> rfl

/-- What makes no difference between entries and lines that go on with one does not see that a line
is swallowed. -/
theorem apply_swallowed {α : Type} (f : Clause → α)
    (h : ∀ body, f (.continuation body) = f (.entry body)) (line : Clause) :
    f (line.swallowed name before) = f line := by
  cases line with
  | entry body =>
      rw [Clause.swallowed]
      split
      · exact h body
      · rfl
  | _ => rfl

/-- An entry that is indented is still one, unless it follows another one. -/
theorem clause_indented (hindent : indent ≠ [] ∧ ∀ c ∈ indent, isBlank c = true)
    (hidle : isIdle (trim raw) = false) (hhead : (trim raw).head? ≠ some '[') :
    clause before (indent ++ raw) =
      if Follows before then .continuation (trim raw) else .entry (trim raw) := by
  have htrim : trim (indent ++ raw) = trim raw := trim_append_left hindent.2
  have hblank : isIndented (indent ++ raw) = true := by
    obtain ⟨c, tail, rfl⟩ := List.exists_cons_of_ne_nil hindent.1
    exact hindent.2 c List.mem_cons_self
  rw [← htrim] at hidle hhead ⊢
  split
  · next hfollows => exact clause_of_continuation hidle hblank hfollows
  · next hfollows =>
      have hstatement : (nearest? before).any Clause.takesMore = false := by
        simpa [Follows] using hfollows
      rw [clause_of_statement hidle (Or.inr hstatement), if_neg hhead]

theorem clause_indentKey (hindent : indent ≠ [] ∧ ∀ c ∈ indent, isBlank c = true)
    (hflush : Flush Clause.takesMore done (raw :: ls))
    (hsame : (nearest? done').any Clause.takesMore = (nearest? done).any Clause.takesMore) :
    clause done' (indentKey name indent done raw) = (clause done raw).swallowed name done := by
  have hraw := hflush.of_cons.1
  have hfollows : Follows done' ↔ Follows done := by rw [Follows, Follows, hsame]
  unfold indentKey
  rcases clause_cases done raw with ⟨hidle, hclause⟩ | ⟨-, hindented, -, hclause⟩ |
    ⟨hidle, hstatement, hclause⟩
  · rw [hclause]
    exact clause_of_idle hidle
  · rw [hclause] at hraw
    cases hindented.symm.trans (hraw rfl)
  · rw [← hsame] at hstatement
    by_cases hhead : (trim raw).head? = some '['
    · rw [if_pos hhead] at hclause
      rw [hclause]
      show clause done' raw = _
      rw [clause_of_statement hidle hstatement, if_pos hhead]
      rfl
    · rw [if_neg hhead] at hclause
      have hnot : isIndented raw = false := hraw (by rw [hclause]; rfl)
      rw [hclause]
      show clause done' (if sectionOf done = some name then indent ++ raw else raw) =
        if sectionOf done = some name ∧ Follows done then _ else _
      by_cases hsection : sectionOf done = some name
      · rw [if_pos hsection, clause_indented hindent hidle hhead]
        simp only [hfollows, hsection, true_and]
      · rw [if_neg hsection, if_neg (fun h => hsection h.1),
          clause_of_statement hidle (Or.inl hnot), if_neg hhead]

theorem clausesAfter_indentKeys (hindent : indent ≠ [] ∧ ∀ c ∈ indent, isBlank c = true)
    (hflush : Flush Clause.takesMore done ls)
    (hsame : (nearest? done').any Clause.takesMore = (nearest? done).any Clause.takesMore) :
    clausesAfter done' (indentKeys name indent done ls) =
      swallow name done (clausesAfter done ls) := by
  induction ls generalizing done done' with
  | nil => rfl
  | cons raw ls ih =>
      have hline : clause done' (indentKey name indent done raw) =
          (clause done raw).swallowed name done := clause_indentKey hindent hflush hsame
      rw [indentKeys, clausesAfter, clausesAfter, swallow, hline]
      congr 1
      apply ih hflush.of_cons.2
      rw [any_takesMore_concat, any_takesMore_concat, hsame,
        apply_swallowed Clause.isIgnored fun _ => rfl,
        apply_swallowed Clause.takesMore fun _ => rfl]

/-- A line that goes on with a value would be indented. -/
theorem Flush.not_continuation (hflush : Flush Clause.takesMore done ls) :
    .continuation body ∉ clausesAfter done ls := by
  induction ls generalizing done with
  | nil => exact List.not_mem_nil
  | cons raw ls ih =>
      rw [clausesAfter, List.mem_cons, not_or]
      refine ⟨fun heq => ?_, ih hflush.of_cons.2⟩
      have hraw := hflush.of_cons.1
      rcases clause_cases done raw with ⟨-, hclause⟩ | ⟨-, hindented, -, hclause⟩ | ⟨-, -, hclause⟩
      · cases heq.trans hclause
      · rw [hclause] at hraw
        cases hindented.symm.trans (hraw rfl)
      · rw [hclause] at heq
        split at heq <;> cases heq

/-! ## Lines that are swallowed -/

theorem swallow_append (done cs cs' : List Clause) :
    swallow name done (cs ++ cs') = swallow name done cs ++ swallow name (done ++ cs) cs' := by
  induction cs generalizing done with
  | nil => rw [swallow, List.append_nil, List.nil_append, List.nil_append]
  | cons line cs ih => simp [swallow, ih]

/-- A line that is left stands for one that was there, and so do those around it. -/
theorem exists_of_swallow_eq (h : swallow name done cs = before' ++ line' :: rest') :
    ∃ before line rest, cs = before ++ line :: rest ∧ before' = swallow name done before ∧
      line' = line.swallowed name (done ++ before) ∧
      rest' = swallow name (done ++ before ++ [line]) rest := by
  induction cs generalizing done before' with
  | nil => simp [swallow] at h
  | cons line cs ih =>
      rw [swallow] at h
      cases before' with
      | nil =>
          obtain ⟨rfl, rfl⟩ := List.cons.inj h
          exact ⟨[], line, cs, rfl, rfl, by rw [List.append_nil], by rw [List.append_nil]⟩
      | cons first before' =>
          obtain ⟨rfl, hrest⟩ := List.cons.inj h
          obtain ⟨before, line', rest, rfl, rfl, rfl, rfl⟩ := ih hrest
          exact ⟨line :: before, line', rest, rfl, rfl, by simp, by simp⟩

theorem swallow_eq_self (h : ∀ before line rest, cs = before ++ line :: rest →
    line.swallowed name (done ++ before) = line) : swallow name done cs = cs := by
  induction cs generalizing done with
  | nil => rfl
  | cons line cs ih =>
      have hfirst := h [] line cs rfl
      rw [List.append_nil] at hfirst
      rw [swallow, hfirst, ih]
      rintro before line' rest rfl
      have hlater := h (line :: before) line' rest rfl
      rwa [List.append_cons] at hlater

/-- No header is swallowed. -/
theorem sectionOf_swallow (before : List Clause) :
    sectionOf (swallow name [] before) = sectionOf before := by
  have hnames (done : List Clause) :
      (swallow name done before).filterMap Clause.name? = before.filterMap Clause.name? := by
    induction before generalizing done with
    | nil => rfl
    | cons line before ih =>
        rw [swallow, List.filterMap_cons, List.filterMap_cons,
          apply_swallowed Clause.name? fun _ => rfl, ih]
  rw [sectionOf, sectionOf, hnames]

theorem swallowed_eq_entry_iff :
    line.swallowed name before = .entry body ↔
      line = .entry body ∧ ¬ (sectionOf before = some name ∧ Follows before) := by
  cases line with
  | entry other =>
      rw [Clause.swallowed]
      split
      · next h => simp [h]
      · next h => simp [h]
  | _ => simp [Clause.swallowed]

/-- The entries that are left are those that are not swallowed. -/
theorem isEntry_swallow_iff :
    IsEntry (swallow name [] cs) before' rest' other left right ↔
      ∃ before body rest, cs = before ++ .entry body :: rest ∧ sectionOf before = some other ∧
        Parts body left right ∧ ¬ (other = name ∧ Follows before) ∧
        before' = swallow name [] before ∧ rest' = swallow name (before ++ [.entry body]) rest := by
  constructor
  · rintro ⟨body, heq, hsection, hparts⟩
    obtain ⟨before, line, rest, rfl, rfl, hline, rfl⟩ := exists_of_swallow_eq heq
    obtain ⟨rfl, hnot⟩ := swallowed_eq_entry_iff.1 hline.symm
    rw [sectionOf_swallow] at hsection
    refine ⟨before, body, rest, rfl, hsection, hparts, ?_, rfl, rfl⟩
    rintro ⟨rfl, hfollows⟩
    exact hnot ⟨hsection, hfollows⟩
  · rintro ⟨before, body, rest, rfl, hsection, hparts, hnot, rfl, rfl⟩
    refine ⟨body, ?_, by rwa [sectionOf_swallow], hparts⟩
    have hline : (Clause.entry body).swallowed name before = .entry body := by
      rw [swallowed_eq_entry_iff]
      refine ⟨rfl, ?_⟩
      rintro ⟨hname, hfollows⟩
      exact hnot ⟨Option.some.inj (hsection.symm.trans hname), hfollows⟩
    rw [swallow_append, swallow, List.nil_append, hline]

theorem HasEntry.of_swallow (h : HasEntry (swallow name [] cs) other key) :
    HasEntry cs other key := by
  obtain ⟨before', rest', left, right, hentry, hkey⟩ := hasEntry_iff.1 h
  obtain ⟨before, body, rest, rfl, hsection, hparts, -⟩ := isEntry_swallow_iff.1 hentry
  exact ⟨before, body, rest, left, right, rfl, hsection, hparts, hkey⟩

/-- A line that breaks a rule broke it before. -/
theorem Breaks.of_swallowed
    (h : Breaks (swallow name [] before) (line.swallowed name before) fault) :
    Breaks before line fault := by
  cases hline : line.swallowed name before with
  | ignored => exact absurd (hline ▸ h) not_breaks_ignored
  | continuation => exact absurd (hline ▸ h) not_breaks_continuation
  | header body =>
      rw [hline] at h
      obtain rfl : line = .header body := by
        cases line with
        | entry => rw [Clause.swallowed] at hline; split at hline <;> cases hline
        | _ => exact hline
      cases h with
      | unterminatedHeader hlast => exact .unterminatedHeader hlast
  | entry body =>
      rw [hline] at h
      obtain ⟨rfl, -⟩ := swallowed_eq_entry_iff.1 hline
      cases h with
      | keyOutsideSection hnone =>
          rw [← sectionOf_eq_none_iff, sectionOf_swallow, sectionOf_eq_none_iff] at hnone
          exact .keyOutsideSection hnone
      | missingDelimiter hnone => exact .missingDelimiter hnone
      | emptyKey hparts hkey => exact .emptyKey hparts hkey
      | duplicateKey hparts hsection hdup =>
          rw [sectionOf_swallow] at hsection
          exact .duplicateKey hparts hsection hdup.of_swallow

theorem Obeys.swallow (h : Obeys cs) : Obeys (swallow name [] cs) := by
  intro before' line' rest' heq fault hbreaks
  obtain ⟨before, line, rest, rfl, rfl, rfl, -⟩ := exists_of_swallow_eq heq
  exact h before line rest rfl fault hbreaks.of_swallowed

/-! ## Values -/

theorem follows_entry (before : List Clause) (body : List Char) :
    Follows (before ++ [.entry body]) :=
  any_takesMore_concat before (.entry body)

theorem Follows.ignored (h : Follows before) : Follows (before ++ [.ignored]) :=
  (any_takesMore_concat before .ignored).trans h

theorem more_eq_nil (hnone : ∀ body, .continuation body ∉ rest) : more rest = [] := by
  induction rest with
  | nil => rfl
  | cons line rest ih =>
      have hrest : ∀ body, .continuation body ∉ rest := fun body hmem =>
        hnone body (List.mem_cons_of_mem line hmem)
      cases line with
      | ignored => exact ih hrest
      | continuation body => exact absurd List.mem_cons_self (hnone body)
      | header | entry => rfl

/-- The value of the first entry goes on with the entries that follow it, if they are swallowed. -/
theorem more_swallow (hnone : ∀ body, .continuation body ∉ rest) (hfollows : Follows done) :
    more (swallow name done rest) = if sectionOf done = some name then following rest else [] := by
  induction rest generalizing done with
  | nil => split <;> rfl
  | cons line rest ih =>
      have hrest : ∀ body, .continuation body ∉ rest := fun body hmem =>
        hnone body (List.mem_cons_of_mem line hmem)
      cases line with
      | continuation body => exact absurd List.mem_cons_self (hnone body)
      | header body => split <;> rfl
      | ignored =>
          have hmore := ih hrest hfollows.ignored
          rw [sectionOf_concat] at hmore
          exact hmore
      | entry body =>
          have hmore := ih hrest (follows_entry done body)
          rw [sectionOf_concat] at hmore
          rw [swallow, Clause.swallowed]
          by_cases hsection : sectionOf done = some name
          · rw [if_pos ⟨hsection, hfollows⟩, if_pos hsection]
            exact congrArg (body :: ·) (hmore.trans (if_pos hsection))
          · rw [if_neg (fun h => hsection h.1), if_neg hsection]
            rfl

theorem not_continuation_of_eq (hnone : ∀ body, .continuation body ∉ cs)
    (heq : cs = before ++ line :: rest) : ∀ body, .continuation body ∉ rest := by
  intro body hmem
  apply hnone body
  rw [heq]
  exact List.mem_append_right before (List.mem_cons_of_mem line hmem)

theorem valueOf_swallow (hnone : ∀ body, .continuation body ∉ cs)
    (heq : cs = before ++ .entry body :: rest) (right : List Char) :
    valueOf right (swallow name (before ++ [.entry body]) rest) =
      if sectionOf before = some name then trim right ++ (following rest).flatMap ('\n' :: ·)
      else valueOf right rest := by
  have hrest := not_continuation_of_eq hnone heq
  have hsection : sectionOf (before ++ [.entry body]) = sectionOf before := sectionOf_concat _ _
  rw [valueOf, more_swallow hrest (follows_entry before body), hsection]
  split
  · rfl
  · rw [valueOf, more_eq_nil hrest]

/-- The section is left with the first entry below each header, and with the others in its value. -/
theorem hasValue_swallow_iff (hnone : ∀ body, .continuation body ∉ cs) :
    HasValue (swallow name [] cs) name key value ↔
      ∃ before rest left right, IsEntry cs before rest name left right ∧ keyOf left = key ∧
        ¬ Follows before ∧ value = trim right ++ (following rest).flatMap ('\n' :: ·) := by
  constructor
  · rintro ⟨before', rest', left, right, hentry, hkey, rfl⟩
    obtain ⟨before, body, rest, heq, hsection, hparts, hnot, rfl, rfl⟩ :=
      isEntry_swallow_iff.1 hentry
    refine ⟨before, rest, left, right, ⟨body, heq, hsection, hparts⟩, hkey, ?_, ?_⟩
    · exact fun hfollows => hnot ⟨rfl, hfollows⟩
    · rw [valueOf_swallow hnone heq, if_pos hsection]
  · rintro ⟨before, rest, left, right, ⟨body, heq, hsection, hparts⟩, hkey, hnot, rfl⟩
    refine ⟨_, _, left, right, isEntry_swallow_iff.2 ⟨before, body, rest, heq, hsection, hparts,
      fun h => hnot h.2, rfl, rfl⟩, hkey, ?_⟩
    rw [valueOf_swallow hnone heq, if_pos hsection]

/-- Other sections keep their values. -/
theorem hasValue_swallow_of_ne (hnone : ∀ body, .continuation body ∉ cs) (hne : other ≠ name) :
    HasValue (swallow name [] cs) other key value ↔ HasValue cs other key value := by
  have hother {before : List Clause} (hsection : sectionOf before = some other) :
      sectionOf before ≠ some name := by
    rw [hsection]
    exact fun h => hne (Option.some.inj h)
  constructor
  · rintro ⟨before', rest', left, right, hentry, hkey, rfl⟩
    obtain ⟨before, body, rest, heq, hsection, hparts, -, rfl, rfl⟩ :=
      isEntry_swallow_iff.1 hentry
    refine ⟨before, rest, left, right, ⟨body, heq, hsection, hparts⟩, hkey, ?_⟩
    rw [valueOf_swallow hnone heq, if_neg (hother hsection)]
  · rintro ⟨before, rest, left, right, ⟨body, heq, hsection, hparts⟩, hkey, rfl⟩
    refine ⟨_, _, left, right, isEntry_swallow_iff.2 ⟨before, body, rest, heq, hsection, hparts,
      fun h => hne h.1, rfl, rfl⟩, hkey, ?_⟩
    rw [valueOf_swallow hnone heq, if_neg (hother hsection)]

end BenchSweep.Ini

namespace BenchSweep.Recipe

open Ini Text

variable {text text' : String} {name indent value left right : List Char}
  {before rest : List Clause}

/-- Texts with the same values in the section give the same recipe, or the same failure. -/
theorem parse_of_values (path : Path) (h : WellFormed (clausesOf text))
    (h' : WellFormed (clausesOf text'))
    (hvalues : ∀ key value, HasValue (clausesOf text') sectionName key value ↔
      HasValue (clausesOf text) sectionName key value) :
    parse path text' = parse path text := by
  obtain ⟨sections, hread⟩ := (exists_read_ok_iff _).2 h
  obtain ⟨sections', hread'⟩ := (exists_read_ok_iff _).2 h'
  apply parse_congr path hread hread'
  intro key
  apply Option.ext
  intro value
  rw [read_values hread, read_values hread']
  exact hvalues key value

/-- What holds a delimiter is no time limit. -/
theorem timeLimit?_of_delimiter {d : Char} (h : d ∈ value) (hd : d = '=' ∨ d = ':') :
    timeLimit? value = none := by
  rw [← Option.not_isSome_iff_eq_none, Option.isSome_iff_exists]
  rintro ⟨n, hn⟩
  have hnumeral := (timeLimit?_eq_some_iff.1 hn).1
  have hblank : isBlank d = false := by rcases hd with rfl | rfl <;> rfl
  have hdigit : ∀ k < 10, Nat.digitChar k ≠ '=' ∧ Nat.digitChar k ≠ ':' := by decide
  rcases hnumeral.eq_plus_or_digit (mem_trim_of_mem h hblank) with rfl | ⟨k, hk, rfl⟩
  · rcases hd with heq | heq <;> cases heq
  · exact hd.elim (hdigit k hk).1 (hdigit k hk).2

theorem entry_mem_of_mem_following {body : List Char} (h : body ∈ following rest) :
    .entry body ∈ rest := by
  induction rest with
  | nil => cases h
  | cons line rest ih =>
      cases line with
      | header => cases h
      | entry first =>
          rcases List.mem_cons.1 h with rfl | h
          · exact List.mem_cons_self
          · exact List.mem_cons_of_mem _ (ih h)
      | ignored | continuation => exact List.mem_cons_of_mem _ (ih h)

/-- A value with another entry in it is no time limit. -/
theorem timeLimit?_of_following {cs : List Clause} (h : WellFormed cs)
    (hentry : IsEntry cs before rest name left right) (hfollowing : following rest ≠ []) :
    timeLimit? (trim right ++ (following rest).flatMap ('\n' :: ·)) = none := by
  obtain ⟨head, rfl, -⟩ := hentry
  obtain ⟨body, tail, hbodies⟩ := List.exists_cons_of_ne_nil hfollowing
  have hmem : .entry body ∈ rest := entry_mem_of_mem_following (by simp [hbodies])
  have hthere : Clause.entry body ∈ before ++ .entry head :: rest := by simp [hmem]
  obtain ⟨front, back, ⟨d, rfl, hd, -⟩, -⟩ := h.keyed body hthere
  apply timeLimit?_of_delimiter (d := d) _ hd
  simp [hbodies]

/-- What becomes of the time limit, which stands in a line of its own, when all keys of its section
are indented. -/
theorem timeLimit_of_swallow (path : Path) (hformed : WellFormed (clausesOf text))
    (hformed' : WellFormed (clausesOf text'))
    (hclauses : clausesOf text' = swallow sectionName [] (clausesOf text))
    (hnone : ∀ body, .continuation body ∉ clausesOf text)
    (hentry : IsEntry (clausesOf text) before rest sectionName left right)
    (hkey : keyOf left = timeLimitKey) :
    (Follows before → parse path text' = .error (.timeLimitMissing path)) ∧
      (¬ Follows before → following rest ≠ [] → parse path text' =
        .error (.timeLimitInvalid path
          (String.ofList (trim right ++ (following rest).flatMap ('\n' :: ·))))) ∧
      (¬ Follows before → following rest = [] → ∀ n,
        (∃ args, parse path text' = .ok ⟨n, args⟩) ↔ ∃ args, parse path text = .ok ⟨n, args⟩) := by
  have hvalue (hnot : ¬ Follows before) : HasValue (clausesOf text') sectionName timeLimitKey
      (trim right ++ (following rest).flatMap ('\n' :: ·)) := by
    rw [hclauses, hasValue_swallow_iff hnone]
    exact ⟨before, rest, left, right, hentry, hkey, hnot, rfl⟩
  refine ⟨fun hfollows => ?_, fun hnot hfollowing => ?_, fun hnot hfollowing n => ?_⟩
  · apply parse_of_not_hasEntry hformed'
    intro hthere
    obtain ⟨value, hleft⟩ := hthere.exists_value
    rw [hclauses, hasValue_swallow_iff hnone] at hleft
    -- the only entry with the key is the one that is swallowed
    obtain ⟨before', rest', left', right', hentry', hkey', hnot, -⟩ := hleft
    obtain ⟨rfl, -⟩ := hentry.unique hformed.obeys hentry' (hkey.trans hkey'.symm)
    exact hnot hfollows
  · rcases parse_of_hasValue path hformed' (hvalue hnot) with ⟨n, args, htime, -⟩ | ⟨-, hparse⟩
    · cases htime.symm.trans (timeLimit?_of_following hformed hentry hfollowing)
    · exact hparse
  · have hhere := hvalue hnot
    rw [hfollowing, List.flatMap_nil, List.append_nil] at hhere
    have hbefore : HasValue (clausesOf text) sectionName timeLimitKey (trim right) := by
      refine ⟨before, rest, left, right, hentry, hkey, ?_⟩
      obtain ⟨body, heq, -⟩ := hentry
      have hrest := not_continuation_of_eq hnone heq
      rw [valueOf, more_eq_nil hrest, List.flatMap_nil, List.append_nil]
    rw [(parse_value path hformed' hhere).1 n, (parse_value path hformed hbefore).1 n]

/-- Which recipe a text without indented entries gives, when all keys of a section are indented by
the same blanks.  The text stays well-formed, but of the entries below one header only the first is
left, and has the others in its value.  So the recipe is the same if there are no others, or if the
section is not `DEFAULT`.  In `DEFAULT` a time limit that follows another key is missing then, one
that is followed by other keys is invalid, and one that stands alone is kept. -/
theorem parse_indented (path : Path) (text text' : String) (name indent : List Char)
    (hformed : WellFormed (clausesOf text)) (hflush : Flush Clause.takesMore [] (lines text.toList))
    (hindent : indent ≠ [] ∧ ∀ c ∈ indent, isBlank c = true)
    (htext : lines text'.toList = indentKeys name indent [] (lines text.toList)) :
    WellFormed (clausesOf text') ∧
      (∀ key value, HasValue (clausesOf text') name key value ↔
        ∃ before rest left right, IsEntry (clausesOf text) before rest name left right ∧
          keyOf left = key ∧ ¬ Follows before ∧
          value = trim right ++ (following rest).flatMap ('\n' :: ·)) ∧
      ((name ≠ "DEFAULT".toList ∨ ∀ before rest left right,
          IsEntry (clausesOf text) before rest name left right → ¬ Follows before) →
        parse path text' = parse path text) ∧
      ∀ before rest left right, name = "DEFAULT".toList →
        IsEntry (clausesOf text) before rest name left right → keyOf left = "maxtime".toList →
        (Follows before → parse path text' = .error (.timeLimitMissing path)) ∧
        (¬ Follows before → following rest ≠ [] → parse path text' =
          .error (.timeLimitInvalid path
            (String.ofList (trim right ++ (following rest).flatMap ('\n' :: ·))))) ∧
        (¬ Follows before → following rest = [] → ∀ n,
          (∃ args, parse path text' = .ok ⟨n, args⟩) ↔
            ∃ args, parse path text = .ok ⟨n, args⟩) := by
  have hclauses : clausesOf text' = swallow name [] (clausesOf text) := by
    rw [clausesOf, htext]
    exact clausesAfter_indentKeys hindent hflush rfl
  have hnone : ∀ body, .continuation body ∉ clausesOf text := fun body => hflush.not_continuation
  have hformed' : WellFormed (clausesOf text') := by
    apply (wellFormed_iff _).2
    show Obeys (clausesOf text')
    rw [hclauses]
    exact hformed.obeys.swallow
  refine ⟨hformed', fun key value => ?_, fun hkept => ?_, fun before rest left right hname => ?_⟩
  · rw [hclauses]
    exact hasValue_swallow_iff hnone
  · apply parse_of_values path hformed hformed'
    intro key value
    rw [hclauses]
    rcases hkept with hname | hapart
    · exact hasValue_swallow_of_ne hnone hname.symm
    · -- no entry is swallowed
      rw [swallow_eq_self]
      intro before line rest heq
      cases line with
      | entry body =>
          rw [List.nil_append, swallowed_eq_entry_iff]
          refine ⟨rfl, ?_⟩
          rintro ⟨hsection, hfollows⟩
          obtain ⟨left, right, hparts, -⟩ := hformed.keyed body (by simp [heq])
          exact hapart before rest left right ⟨body, heq, hsection, hparts⟩ hfollows
      | _ => rfl
  · subst hname
    intro hentry hkey
    exact timeLimit_of_swallow path hformed hformed' hclauses hnone hentry hkey

/-- A time limit below the arguments, in the second of two sections. -/
def argsFirst : String := "[x]\nk = 1\n[DEFAULT]\nargs : 1\n# c\nmaxtime = 5\n"

/-- The same text with the keys of the second section behind a tab each. -/
def argsFirstIndented : String := "[x]\nk = 1\n[DEFAULT]\n\targs : 1\n# c\n\tmaxtime = 5\n"

theorem parse_indented_argsFirst :
    parse ⟨"config"⟩ argsFirst = .ok ⟨5, ["1"]⟩ ∧
      parse ⟨"config"⟩ argsFirstIndented = .error (.timeLimitMissing ⟨"config"⟩) := by
  have hparse : parse ⟨"config"⟩ argsFirst = .ok ⟨5, ["1"]⟩ := by decide +kernel
  have hread : ∃ sections, Ini.read argsFirst.toList = .ok sections :=
    ⟨⟨[("x".toList, ⟨[("k".toList, "1".toList)]⟩),
      ("DEFAULT".toList, ⟨[("args".toList, "1".toList), ("maxtime".toList, "5".toList)]⟩)]⟩,
      by decide +kernel⟩
  have hflush : Flush Clause.takesMore [] (lines argsFirst.toList) := by
    unfold Flush
    decide +kernel
  have hindent : ['\t'] ≠ [] ∧ ∀ c ∈ ['\t'], isBlank c = true := ⟨by simp, List.all_eq_true.1 rfl⟩
  have htext : lines argsFirstIndented.toList =
      indentKeys "DEFAULT".toList ['\t'] [] (lines argsFirst.toList) := by
    decide +kernel
  have hentry : IsEntry (clausesOf argsFirst)
      [.header "[x]".toList, .entry "k = 1".toList, .header "[DEFAULT]".toList,
        .entry "args : 1".toList, .ignored] [] "DEFAULT".toList "maxtime ".toList " 5".toList :=
    ⟨"maxtime = 5".toList, by decide +kernel, by decide, '=', rfl, Or.inl rfl, by simp⟩
  have hindented := parse_indented ⟨"config"⟩ argsFirst argsFirstIndented "DEFAULT".toList ['\t']
    ((exists_read_ok_iff _).1 hread) hflush hindent htext
  exact ⟨hparse, (hindented.2.2.2 _ _ _ _ rfl hentry (by decide)).1 (by decide)⟩

/-- Two keys below a header. -/
def twoKeys : String := "[DEFAULT]\nmaxtime = 5\nargs = 1\n"

/-- The same keys behind a blank each. -/
def twoKeysIndented : String := "[DEFAULT]\n maxtime = 5\n args = 1\n"

theorem twoKeys_indented_fails :
    Flush Clause.takesMore [] (lines twoKeys.toList) ∧
      lines twoKeysIndented.toList =
        indentKeys "DEFAULT".toList [' '] [] (lines twoKeys.toList) ∧
      parse ⟨"config"⟩ twoKeys = .ok ⟨5, ["1"]⟩ ∧
      parse ⟨"config"⟩ twoKeysIndented =
        .error (.timeLimitInvalid ⟨"config"⟩ "5\nargs = 1") := by
  unfold Flush
  decide +kernel

end BenchSweep.Recipe
