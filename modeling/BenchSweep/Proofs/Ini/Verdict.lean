import BenchSweep.Recipe
import BenchSweep.Proofs.Ini.Step

/-!
# Which texts are read

* `Ini.Agrees` : what has been read, and what the lines were.  A line that breaks no rule keeps
  the two in agreement, and any other one is refused with the first rule that it breaks
  (`Ini.Agrees.step`).
* `Ini.read_cases` : a text obeys the rules and is read, or it is refused at its first fault.
* `Recipe.parse_verdict` : which texts of recipes are read, and where and why others are refused.
-/

namespace BenchSweep.Ini

open Text

/-- The lines that were read left this behind. -/
structure Agrees (r : Reading) (done : List Clause) : Prop where
  /-- The reader is behind an entry if the next line may go on with a value. -/
  behind : r.cursor.entry?.isSome = (nearest? done).any Clause.takesMore
  /-- The reader is in the section of the next line. -/
  inside : r.cursor.section? = sectionOf done
  /-- A section has the keys of its entries. -/
  keys : ∀ name key, ((r.entries name).get? key).isSome ↔ HasEntry done name key

variable {r next : Reading} {done : List Clause} {raw body left right name key : List Char}
  {fault : SyntaxFault}

theorem agrees_initial : Agrees Reading.initial [] := by
  refine ⟨rfl, rfl, fun name key => ⟨fun h => ?_, ?_⟩⟩
  · cases h
  · rintro ⟨before, body, rest, left, right, heq, -⟩
    simp at heq

/-! ## One line -/

theorem clause_of_idle (h : isIdle (trim raw) = true) : clause done raw = .ignored :=
  if_pos (isIdle_iff.1 h)

theorem clause_of_continuation (h : isIdle (trim raw) = false) (hraw : isIndented raw = true)
    (hmore : (nearest? done).any Clause.takesMore = true) :
    clause done raw = .continuation (trim raw) := by
  rw [clause, if_neg (mt isIdle_iff.2 (by simp [h])), if_pos ⟨hraw, hmore⟩]

theorem clause_of_statement (h : isIdle (trim raw) = false)
    (hraw : isIndented raw = false ∨ (nearest? done).any Clause.takesMore = false) :
    clause done raw =
      if (trim raw).head? = some '[' then .header (trim raw) else .entry (trim raw) := by
  have hnot : ¬ (raw.head?.any isBlank = true ∧ (nearest? done).any Clause.takesMore = true) := by
    rw [Decidable.not_and_iff_or_not, Bool.not_eq_true, Bool.not_eq_true]
    exact hraw
  rw [clause, if_neg (mt isIdle_iff.2 (by simp [h])), if_neg hnot]

theorem clause_cases (done : List Clause) (raw : List Char) :
    (isIdle (trim raw) = true ∧ clause done raw = .ignored) ∨
      (isIdle (trim raw) = false ∧ isIndented raw = true ∧
        (nearest? done).any Clause.takesMore = true ∧ clause done raw = .continuation (trim raw)) ∨
      (isIdle (trim raw) = false ∧
        (isIndented raw = false ∨ (nearest? done).any Clause.takesMore = false) ∧
        clause done raw =
          if (trim raw).head? = some '[' then .header (trim raw) else .entry (trim raw)) := by
  by_cases hidle : isIdle (trim raw) = true
  · exact Or.inl ⟨hidle, clause_of_idle hidle⟩
  · rw [Bool.not_eq_true] at hidle
    right
    by_cases hmore : isIndented raw = true ∧ (nearest? done).any Clause.takesMore = true
    · exact Or.inl ⟨hidle, hmore.1, hmore.2, clause_of_continuation hidle hmore.1 hmore.2⟩
    · rw [Decidable.not_and_iff_or_not, Bool.not_eq_true, Bool.not_eq_true] at hmore
      exact Or.inr ⟨hidle, hmore, clause_of_statement hidle hmore⟩

theorem not_breaks_ignored : ¬ Breaks done .ignored fault := nofun

theorem not_breaks_continuation : ¬ Breaks done (.continuation body) fault := nofun

/-- An ignored line leaves all as it was. -/
theorem Agrees.ignored (h : Agrees r done) : Agrees r (done ++ [.ignored]) where
  behind := by rw [nearest?_concat, h.behind]; rfl
  inside := by rw [sectionOf_concat, h.inside]; rfl
  keys name key := (h.keys name key).trans (hasEntry_concat_of_ne (by simp)).symm

/-- A continuation changes a value, but no key. -/
theorem Agrees.continuation (h : Agrees r done) (hcursor : r.cursor.entry? = some (name, key)) :
    Agrees (r.continueEntry name key body) (done ++ [.continuation body]) := by
  have hsame : (r.continueEntry name key body).cursor = r.cursor := by
    rw [Reading.continueEntry]
    split <;> rfl
  refine ⟨?_, ?_, fun other k => ?_⟩
  · rw [hsame, hcursor, nearest?_concat]
    rfl
  · rw [hsame, h.inside, sectionOf_concat]
    rfl
  · have hkeys : (((r.continueEntry name key body).entries other).get? k).isSome =
        ((r.entries other).get? k).isSome := by
      rw [Reading.continueEntry]
      split
      · next value hvalue =>
          rw [Reading.setEntry, Reading.entries_mk_put]
          split
          · next heq =>
              subst heq
              by_cases hk : key = k
              · subst hk
                rw [Table.get?_put_self, hvalue]
                rfl
              · rw [Table.get?_put_ne _ _ hk]
          · rfl
      · rfl
    rw [hkeys]
    exact (h.keys other k).trans (hasEntry_concat_of_ne (by simp)).symm

/-- A header moves on to its section. -/
theorem Agrees.header (h : Agrees r done) (body : List Char) :
    Agrees (r.openSection body.tail.dropLast) (done ++ [.header body]) := by
  refine ⟨by rw [nearest?_concat]; rfl, by rw [sectionOf_concat]; rfl, fun name key => ?_⟩
  have hentries : (r.openSection body.tail.dropLast).entries name = r.entries name := by
    rw [Reading.openSection, Reading.entries_mk_put]
    split
    · next heq => rw [heq]
    · rfl
  rw [hentries]
  exact (h.keys name key).trans (hasEntry_concat_of_ne (by simp)).symm

/-- An entry adds its key to its section. -/
theorem Agrees.entry (h : Agrees r done) (hparts : Parts body left right)
    (hsection : sectionOf done = some name) (value : List Char) :
    Agrees ⟨r.setEntry name (keyOf left) value, .behindEntry name (keyOf left)⟩
      (done ++ [.entry body]) := by
  refine ⟨by rw [nearest?_concat]; rfl, by rw [sectionOf_concat, hsection]; rfl, fun other k => ?_⟩
  rw [hasEntry_concat, ← h.keys, Reading.setEntry, Reading.entries_mk_put]
  constructor
  · intro hsome
    split at hsome
    · next heq =>
        subst heq
        by_cases hk : keyOf left = k
        · exact Or.inr ⟨body, left, right, rfl, hsection, hparts, hk⟩
        · exact Or.inl (by rwa [Table.get?_put_ne _ _ hk] at hsome)
    · exact Or.inl hsome
  · rintro (hsome | ⟨body', left', right', hbody, hsection', hparts', rfl⟩)
    · split
      · next heq =>
          subst heq
          rw [Table.get?_put]
          split
          · rfl
          · exact hsome
      · exact hsome
    · cases hbody
      obtain rfl := Option.some.inj (hsection.symm.trans hsection')
      rw [if_pos rfl, (hparts.unique hparts').1, Table.get?_put_self]
      rfl

/-- A header is refused if it does not end with a bracket. -/
theorem Agrees.step_header (h : Agrees r done) (hbody : body.head? = some '[') :
    (∃ next, r.addStatement body = .ok next ∧ Agrees next (done ++ [.header body]) ∧
        ∀ fault, ¬ Breaks done (.header body) fault) ∨
      ∃ fault, r.addStatement body = .error fault ∧ FirstBroken done (.header body) fault := by
  obtain ⟨rest, rfl⟩ := List.head?_eq_some_iff.1 hbody
  rw [Reading.addStatement_header, headerName?]
  by_cases hlast : rest.getLast? = some ']'
  · left
    rw [if_pos hlast]
    refine ⟨_, rfl, h.header ('[' :: rest), ?_⟩
    rintro fault ⟨hnot⟩
    apply hnot
    rw [List.getLast?_cons, hlast]
    rfl
  · right
    rw [if_neg hlast]
    refine ⟨_, rfl, .unterminatedHeader fun hclosed => ?_, fun other _ => Nat.zero_le _⟩
    -- the bracket at the end is not the one in front
    rw [List.getLast?_cons] at hclosed
    cases hrest : rest.getLast? with
    | none => simp [hrest] at hclosed
    | some c => simp_all

/-- An entry of a section that has a delimiter can only have no key, or one that is there. -/
theorem Breaks.of_parts (h : Breaks done (.entry body) fault)
    (hsection : sectionOf done = some name) (hparts : Parts body left right) :
    (trim left = [] ∧ fault = .emptyKey) ∨
      HasEntry done name (keyOf left) ∧ fault = .duplicateKey (String.ofList (keyOf left)) := by
  cases h with
  | keyOutsideSection hout => simp [sectionOf_eq_none_iff.2 hout] at hsection
  | missingDelimiter hnone => exact absurd hnone hparts.not_none
  | emptyKey hparts' hkey =>
      obtain ⟨rfl, -⟩ := hparts.unique hparts'
      exact Or.inl ⟨hkey, rfl⟩
  | duplicateKey hparts' hsection' hdup =>
      obtain ⟨rfl, -⟩ := hparts.unique hparts'
      obtain rfl := Option.some.inj (hsection.symm.trans hsection')
      exact Or.inr ⟨hdup, rfl⟩

/-- An entry of a section without a delimiter breaks that rule alone. -/
theorem Breaks.of_no_parts (h : Breaks done (.entry body) fault)
    (hsection : sectionOf done = some name) (hnone : ∀ c ∈ body, c ≠ '=' ∧ c ≠ ':') :
    fault = .missingDelimiter := by
  cases h with
  | keyOutsideSection hout => simp [sectionOf_eq_none_iff.2 hout] at hsection
  | missingDelimiter => rfl
  | emptyKey hparts => exact absurd hnone hparts.not_none
  | duplicateKey hparts => exact absurd hnone hparts.not_none

/-- An entry is refused if it breaks a rule. -/
theorem Agrees.step_entry (h : Agrees r done) (hbody : body.head? ≠ some '[') :
    (∃ next, r.addStatement body = .ok next ∧ Agrees next (done ++ [.entry body]) ∧
        ∀ fault, ¬ Breaks done (.entry body) fault) ∨
      ∃ fault, r.addStatement body = .error fault ∧ FirstBroken done (.entry body) fault := by
  rw [Reading.addStatement_entry hbody, h.inside]
  cases hsection : sectionOf done with
  | none =>
      right
      refine ⟨_, rfl, .keyOutsideSection (sectionOf_eq_none_iff.1 hsection), ?_⟩
      intro other hother
      cases hother <;> simp [precedence]
  | some name =>
      rcases parts_or_none body with ⟨left, right, hparts⟩ | hnone
      · rw [keyValue?_of_parts hparts]
        by_cases hkey : trim left = []
        · right
          rw [if_pos hkey]
          refine ⟨_, rfl, .emptyKey hparts hkey, fun other hother => ?_⟩
          rcases hother.of_parts hsection hparts with ⟨-, rfl⟩ | ⟨-, rfl⟩
          · exact Nat.le_refl _
          · exact Nat.le_succ _
        · rw [if_neg hkey]
          simp only [Except.bind, Reading.addEntry]
          by_cases hdup : HasEntry done name (keyOf left)
          · right
            rw [if_pos ((h.keys _ _).2 hdup)]
            refine ⟨_, rfl, .duplicateKey hparts hsection hdup, fun other hother => ?_⟩
            rcases hother.of_parts hsection hparts with ⟨hkey', -⟩ | ⟨-, rfl⟩
            · exact absurd hkey' hkey
            · exact Nat.le_refl _
          · left
            rw [if_neg (mt (h.keys _ _).1 hdup)]
            refine ⟨_, rfl, h.entry hparts hsection _, fun fault hbreaks => ?_⟩
            rcases hbreaks.of_parts hsection hparts with ⟨hkey', -⟩ | ⟨hdup', -⟩
            · exact hkey hkey'
            · exact hdup hdup'
      · right
        rw [keyValue?_of_none hnone]
        refine ⟨_, rfl, .missingDelimiter hnone, fun other hother => ?_⟩
        obtain rfl := hother.of_no_parts hsection hnone
        exact Nat.le_refl _

/-- A line is taken if it breaks no rule, and refused with the first rule that it breaks. -/
theorem Agrees.step (h : Agrees r done) (raw : List Char) :
    (∃ next, r.step raw = .ok next ∧ Agrees next (done ++ [clause done raw]) ∧
        ∀ fault, ¬ Breaks done (clause done raw) fault) ∨
      ∃ fault, r.step raw = .error fault ∧ FirstBroken done (clause done raw) fault := by
  rcases clause_cases done raw with ⟨hidle, hclause⟩ | ⟨hidle, hraw, hmore, hclause⟩ |
    ⟨hidle, hraw, hclause⟩
  · rw [hclause, Reading.step_of_idle hidle]
    exact Or.inl ⟨r, rfl, h.ignored, fun _ => not_breaks_ignored⟩
  · obtain ⟨⟨name, key⟩, hcursor⟩ := Option.isSome_iff_exists.1 (h.behind.trans hmore)
    rw [hclause, Reading.step_of_continuation hidle hraw hcursor]
    exact Or.inl ⟨_, rfl, h.continuation hcursor, fun _ => not_breaks_continuation⟩
  · have hcursor : isIndented raw = false ∨ r.cursor.entry? = none :=
      hraw.imp_right fun hmore => by simpa [← h.behind] using hmore
    rw [hclause, Reading.step_of_statement hidle hcursor]
    split
    · next hhead => exact h.step_header hhead
    · next hhead => exact h.step_entry hhead

/-! ## All lines -/

/-- Lines are read to the end if they obey the rules, and up to their first fault otherwise. -/
theorem Agrees.steps (h : Agrees r done) (hobeys : Obeys done) (ls : List (List Char)) :
    (∃ last, r.steps (done.length + 1) ls = .ok last ∧ Obeys (done ++ clausesAfter done ls)) ∨
      ∃ i fault, r.steps (done.length + 1) ls = .error (i + 1, fault) ∧
        FirstFault (done ++ clausesAfter done ls) i fault := by
  induction ls generalizing r done with
  | nil => exact Or.inl ⟨r, rfl, by simpa [clausesAfter] using hobeys⟩
  | cons raw rest ih =>
      rw [Reading.steps, clausesAfter]
      rcases h.step raw with ⟨next, hstep, hnext, hline⟩ | ⟨fault, hstep, hbroken⟩
      · rw [hstep, List.append_cons]
        have hrest := ih hnext (hobeys.concat hline)
        rwa [List.length_append, List.length_singleton] at hrest
      · rw [hstep]
        exact Or.inr ⟨_, fault, rfl, done, _, _, rfl, rfl, hobeys, hbroken⟩

/-- A text is read if its lines obey the rules, and refused at its first fault otherwise. -/
theorem read_cases (text : List Char) :
    (∃ sections, read text = .ok sections ∧ Obeys (clauses (lines text))) ∨
      ∃ i fault, read text = .error (i + 1, fault) ∧
        FirstFault (clauses (lines text)) i fault := by
  rcases agrees_initial.steps obeys_nil (lines text) with ⟨last, hsteps, hobeys⟩ |
    ⟨i, fault, hsteps, hfault⟩
  · refine Or.inl ⟨last.sections, ?_, hobeys⟩
    rw [read]
    exact congrArg (Except.map Reading.sections) hsteps
  · refine Or.inr ⟨i, fault, ?_, hfault⟩
    rw [read]
    exact congrArg (Except.map Reading.sections) hsteps

/-- The texts that are read are the well-formed ones. -/
theorem exists_read_ok_iff (text : List Char) :
    (∃ sections, read text = .ok sections) ↔ WellFormed (clauses (lines text)) := by
  rw [wellFormed_iff]
  rcases read_cases text with ⟨sections, hread, hobeys⟩ | ⟨i, fault, hread, hfault⟩
  · exact ⟨fun _ => hobeys, fun _ => ⟨sections, hread⟩⟩
  · refine ⟨fun ⟨sections, hok⟩ => ?_, fun hobeys => absurd hobeys hfault.not_obeys⟩
    cases hread.symm.trans hok

/-- A text is refused with the number of the line of its first fault, counted from one. -/
theorem read_eq_error_iff (text : List Char) (n : Nat) (fault : SyntaxFault) :
    read text = .error (n, fault) ↔
      ∃ i, n = i + 1 ∧ FirstFault (clauses (lines text)) i fault := by
  rcases read_cases text with ⟨sections, hread, hobeys⟩ | ⟨i, fault', hread, hfault⟩
  · refine ⟨fun herror => ?_, fun ⟨i, _, hfault⟩ => absurd hobeys hfault.not_obeys⟩
    cases hread.symm.trans herror
  · constructor
    · intro herror
      cases hread.symm.trans herror
      exact ⟨i, rfl, hfault⟩
    · rintro ⟨j, rfl, hfault'⟩
      obtain ⟨rfl, rfl⟩ := hfault'.unique hfault
      exact hread

-- a section that is opened again has the keys it had
example : read "[a]\nKey: 1\n[b]\n[a]\n kEY = 2\n".toList = .error (5, .duplicateKey "key") := by
  decide +kernel

end BenchSweep.Ini

namespace BenchSweep.Recipe

open Ini Text

/-! ## Recipes -/

/-- Once its text is read, a recipe is not refused for a fault in a line. -/
theorem ofSections_ne_malformed (path other : Path) (sections : Sections) (n : Nat)
    (fault : SyntaxFault) : ofSections path sections ≠ .error (.configMalformed other n fault) := by
  intro h
  simp only [ofSections] at h
  split at h
  · cases h
  · split at h <;> cases h

theorem parse_eq_malformed_iff (path : Path) (text : String) (n : Nat) (fault : SyntaxFault) :
    parse path text = .error (.configMalformed path n fault) ↔
      read text.toList = .error (n, fault) := by
  rw [parse]
  cases hread : read text.toList with
  | ok sections => simp [ofSections_ne_malformed]
  | error at_ => simp [Prod.ext_iff]

/-- A text is read if its lines are well-formed.  Otherwise the recipe is refused at the first line
that breaks a rule, and for the first rule that this line breaks, whatever text follows it. -/
theorem parse_verdict (path : Path) (text : String) :
    ((∃ sections, read text.toList = .ok sections) ↔
        WellFormed (clauses (lines text.toList))) ∧
      (WellFormed (clauses (lines text.toList)) ∨
        ∃ n fault, parse path text = .error (.configMalformed path n fault)) ∧
      (∀ n fault, parse path text = .error (.configMalformed path n fault) ↔
        ∃ i, n = i + 1 ∧ FirstFault (clauses (lines text.toList)) i fault) ∧
      ∀ n fault other, parse path text = .error (.configMalformed path n fault) →
        (lines other.toList).take n = (lines text.toList).take n →
        parse path other = .error (.configMalformed path n fault) := by
  refine ⟨exists_read_ok_iff _, ?_, fun n fault => ?_, fun n fault other hparse hsame => ?_⟩
  · rcases read_cases text.toList with ⟨sections, hread, -⟩ | ⟨i, fault, hread, -⟩
    · exact Or.inl ((exists_read_ok_iff _).1 ⟨sections, hread⟩)
    · exact Or.inr ⟨i + 1, fault, (parse_eq_malformed_iff ..).2 hread⟩
  · rw [parse_eq_malformed_iff, read_eq_error_iff]
  · rw [parse_eq_malformed_iff, read_eq_error_iff] at hparse ⊢
    obtain ⟨i, rfl, hfault⟩ := hparse
    exact ⟨i, rfl, hfault.congr (by rw [take_clauses, take_clauses, hsame])⟩

end BenchSweep.Recipe
