import BenchSweep.Ini.Document
import BenchSweep.Proofs.Text.Lowercase

/-!
# The grammar of sectioned texts

The rules that the lines of a sectioned text obey, said without a reader.

* `Ini.clauses` : what the lines are.  A line is what it is by itself and by the nearest line
  before it that is not ignored (`Ini.getElem?_clauses`).
* `Ini.WellFormed` : the rules for a text.
* `Ini.Breaks` : the rules line by line, each with the fault of a line that breaks it.
* `Ini.wellFormed_iff` : a text is well-formed if no line breaks a rule.
* `Ini.FirstFault` : the first line that breaks a rule, with the first of the rules it breaks.
  There is at most one (`Ini.FirstFault.unique`), and it does not depend on what follows
  (`Ini.FirstFault.congr`).
-/

namespace BenchSweep.Ini

open Text

/-! ## Clauses -/

/-- What a line of a text is, with what is left of it when it is trimmed. -/
inductive Clause
  | ignored
  | header (body : List Char)
  | entry (body : List Char)
  | continuation (body : List Char)
  deriving DecidableEq, Repr

/-- Is the line ignored? -/
def Clause.isIgnored : Clause → Bool
  | ignored => true
  | _ => false

/-- May an indented line go on with the value? -/
def Clause.takesMore : Clause → Bool
  | entry _ => true
  | continuation _ => true
  | _ => false

/-- The name between the brackets of a header. -/
def Clause.name? : Clause → Option (List Char)
  | header body => some body.tail.dropLast
  | _ => none

/-- The nearest line before another one that is not ignored. -/
def nearest? (before : List Clause) : Option Clause := (before.filter (!·.isIgnored)).getLast?

/-- What a line is behind other lines. -/
def clause (before : List Clause) (raw : List Char) : Clause :=
  if trim raw = [] ∨ (trim raw).head? = some '#' ∨ (trim raw).head? = some ';' then .ignored
  else if raw.head?.any isBlank ∧ (nearest? before).any Clause.takesMore then
    .continuation (trim raw)
  else if (trim raw).head? = some '[' then .header (trim raw)
  else .entry (trim raw)

/-- What lines are that stand behind other lines. -/
def clausesAfter (before : List Clause) : List (List Char) → List Clause
  | [] => []
  | raw :: rest => clause before raw :: clausesAfter (before ++ [clause before raw]) rest

/-- What the lines of a text are. -/
def clauses (lines : List (List Char)) : List Clause := clausesAfter [] lines

theorem getElem?_clausesAfter (before : List Clause) (lines : List (List Char)) (i : Nat) :
    (clausesAfter before lines)[i]? =
      lines[i]?.map (clause (before ++ (clausesAfter before lines).take i)) := by
  induction lines generalizing before i with
  | nil => rfl
  | cons raw rest ih =>
      cases i with
      | zero => simp [clausesAfter]
      | succ i => simp [clausesAfter, ih]

/-- A line is what it is behind the lines before it. -/
theorem getElem?_clauses (lines : List (List Char)) (i : Nat) :
    (clauses lines)[i]? = lines[i]?.map (clause ((clauses lines).take i)) :=
  getElem?_clausesAfter [] lines i

theorem take_clausesAfter (before : List Clause) (lines : List (List Char)) (n : Nat) :
    (clausesAfter before lines).take n = clausesAfter before (lines.take n) := by
  induction lines generalizing before n with
  | nil => simp [clausesAfter]
  | cons raw rest ih =>
      cases n with
      | zero => rfl
      | succ n => simp [clausesAfter, ih]

/-- What the first lines are does not depend on those that follow. -/
theorem take_clauses (lines : List (List Char)) (n : Nat) :
    (clauses lines).take n = clauses (lines.take n) :=
  take_clausesAfter [] lines n

theorem length_clausesAfter (before : List Clause) (lines : List (List Char)) :
    (clausesAfter before lines).length = lines.length := by
  induction lines generalizing before with
  | nil => rfl
  | cons raw rest ih => rw [clausesAfter, List.length_cons, List.length_cons, ih]

theorem clausesAfter_append (before : List Clause) (lines lines' : List (List Char)) :
    clausesAfter before (lines ++ lines') =
      clausesAfter before lines ++ clausesAfter (before ++ clausesAfter before lines) lines' := by
  induction lines generalizing before with
  | nil => simp [clausesAfter]
  | cons raw rest ih => simp [clausesAfter, ih]

/-! ## Sections and keys -/

/-- The name of the section that a line behind other lines stands in: that of the last header. -/
def sectionOf (before : List Clause) : Option (List Char) :=
  (before.filterMap Clause.name?).getLast?

/-- Is the body of an entry parted at its first delimiter? -/
def Parts (body left right : List Char) : Prop :=
  ∃ d, body = left ++ d :: right ∧ (d = '=' ∨ d = ':') ∧ ∀ c ∈ left, c ≠ '=' ∧ c ≠ ':'

/-- The key that stands in front of a delimiter. -/
def keyOf (left : List Char) : List Char := lowercase (trim left)

/-- Is there an entry with the key in a section of the name? -/
def HasEntry (lines : List Clause) (name key : List Char) : Prop :=
  ∃ before body rest left right, lines = before ++ .entry body :: rest ∧
    sectionOf before = some name ∧ Parts body left right ∧ keyOf left = key

/-! ## Rules -/

/-- The rules for the lines of a text. -/
structure WellFormed (lines : List Clause) : Prop where
  /-- The first line that is not ignored, if there is one, is a header. -/
  opened : ∀ line, lines.find? (!·.isIgnored) = some line → ∃ body, line = .header body
  /-- Every header ends with a bracket. -/
  closed : ∀ body, .header body ∈ lines → body.getLast? = some ']'
  /-- Every entry has a delimiter with a key in front of it that is not blank. -/
  keyed : ∀ body, .entry body ∈ lines → ∃ left right, Parts body left right ∧ trim left ≠ []
  /-- No entry has the key of an entry before it in a section of the same name. -/
  distinct : ∀ before body rest name left right, lines = before ++ .entry body :: rest →
    sectionOf before = some name → Parts body left right → ¬ HasEntry before name (keyOf left)

/-- Does a line break a rule, with a fault, behind other lines? -/
inductive Breaks (before : List Clause) : Clause → SyntaxFault → Prop
  | unterminatedHeader {body} (h : body.getLast? ≠ some ']') :
      Breaks before (.header body) .unterminatedHeader
  | keyOutsideSection {body} (h : ∀ line ∈ before, ∀ head, line ≠ .header head) :
      Breaks before (.entry body) .keyOutsideSection
  | missingDelimiter {body} (h : ∀ c ∈ body, c ≠ '=' ∧ c ≠ ':') :
      Breaks before (.entry body) .missingDelimiter
  | emptyKey {body left right} (h : Parts body left right) (hkey : trim left = []) :
      Breaks before (.entry body) .emptyKey
  | duplicateKey {body left right name} (h : Parts body left right)
      (hsection : sectionOf before = some name) (hdup : HasEntry before name (keyOf left)) :
      Breaks before (.entry body) (.duplicateKey (String.ofList (keyOf left)))

/-- The order in which the rules are looked at. -/
def precedence : SyntaxFault → Nat
  | .unterminatedHeader => 0
  | .keyOutsideSection => 1
  | .missingDelimiter => 2
  | .emptyKey => 3
  | .duplicateKey _ => 4

/-- Is the fault that of the first rule that a line breaks? -/
def FirstBroken (before : List Clause) (line : Clause) (fault : SyntaxFault) : Prop :=
  Breaks before line fault ∧ ∀ other, Breaks before line other → precedence fault ≤ precedence other

/-- Does no line break a rule? -/
def Obeys (lines : List Clause) : Prop :=
  ∀ before line rest, lines = before ++ line :: rest → ∀ fault, ¬ Breaks before line fault

/-- Is the line behind `i` others the first that breaks a rule, and the fault that of the first
rule that it breaks? -/
def FirstFault (lines : List Clause) (i : Nat) (fault : SyntaxFault) : Prop :=
  ∃ before line rest, lines = before ++ line :: rest ∧ before.length = i ∧ Obeys before ∧
    FirstBroken before line fault

section

variable {before lines : List Clause} {line : Clause} {body left right left' right' : List Char}
  {name key : List Char} {fault fault' : SyntaxFault} {i i' : Nat}

/-! ## Delimiters -/

/-- An entry is parted at its first delimiter in one way. -/
theorem Parts.unique (h : Parts body left right) (h' : Parts body left' right') :
    left = left' ∧ right = right' := by
  obtain ⟨d, rfl, hd, hleft⟩ := h
  obtain ⟨d', heq, hd', hleft'⟩ := h'
  -- a part that is longer than the other would hold a delimiter
  have hnot {l : List Char} {c : Char} (hc : c = '=' ∨ c = ':')
      (hl : ∀ c ∈ l, c ≠ '=' ∧ c ≠ ':') : c ∉ l := fun hmem =>
    hc.elim (hl c hmem).1 (hl c hmem).2
  rcases List.append_eq_append_iff.1 heq with ⟨more, hmore, hrest⟩ | ⟨more, hmore, hrest⟩
  · cases more with
    | nil => simp_all
    | cons c more =>
        obtain ⟨rfl, -⟩ := List.cons.inj hrest
        exact absurd (by simp [hmore]) (hnot hd hleft')
  · cases more with
    | nil => simp_all
    | cons c more =>
        obtain ⟨rfl, -⟩ := List.cons.inj hrest
        exact absurd (by simp [hmore]) (hnot hd' hleft)

/-- A body is parted at a delimiter, or it holds none. -/
theorem parts_or_none (body : List Char) :
    (∃ left right, Parts body left right) ∨ ∀ c ∈ body, c ≠ '=' ∧ c ≠ ':' := by
  induction body with
  | nil => exact Or.inr (by simp)
  | cons c body ih =>
      by_cases hc : c = '=' ∨ c = ':'
      · exact Or.inl ⟨[], body, c, rfl, hc, by simp⟩
      · rcases ih with ⟨left, right, d, rfl, hd, hleft⟩ | hnone
        · exact Or.inl ⟨c :: left, right, d, rfl, hd, List.forall_mem_cons.2 ⟨not_or.1 hc, hleft⟩⟩
        · exact Or.inr (List.forall_mem_cons.2 ⟨not_or.1 hc, hnone⟩)

theorem Parts.not_none (h : Parts body left right) : ¬ ∀ c ∈ body, c ≠ '=' ∧ c ≠ ':' := by
  obtain ⟨d, rfl, hd, -⟩ := h
  intro hnone
  have hd' := hnone d (by simp)
  exact hd.elim hd'.1 hd'.2

/-! ## One line more -/

theorem nearest?_concat (before : List Clause) (line : Clause) :
    nearest? (before ++ [line]) = if line.isIgnored then nearest? before else some line := by
  cases hline : line.isIgnored <;> simp [nearest?, hline]

theorem sectionOf_concat (before : List Clause) (line : Clause) :
    sectionOf (before ++ [line]) = line.name?.or (sectionOf before) := by
  cases hline : line.name? <;> simp [sectionOf, hline]

/-- Behind one line more there is one entry more, or none. -/
theorem hasEntry_concat :
    HasEntry (before ++ [line]) name key ↔
      HasEntry before name key ∨ ∃ body left right, line = .entry body ∧
        sectionOf before = some name ∧ Parts body left right ∧ keyOf left = key := by
  constructor
  · rintro ⟨front, body, rest, left, right, heq, hentry⟩
    rcases List.eq_nil_or_concat rest with rfl | ⟨rest, last, rfl⟩
    · obtain ⟨rfl, hline⟩ := List.append_inj' heq rfl
      exact Or.inr ⟨body, left, right, List.singleton_inj.1 hline, hentry⟩
    · rw [List.concat_eq_append, ← List.cons_append, ← List.append_assoc] at heq
      exact Or.inl ⟨front, body, rest, left, right, (List.append_inj' heq rfl).1, hentry⟩
  · rintro (⟨front, body, rest, left, right, rfl, hentry⟩ | ⟨body, left, right, rfl, hentry⟩)
    · exact ⟨front, body, rest ++ [line], left, right, by simp, hentry⟩
    · exact ⟨before, body, [], left, right, rfl, hentry⟩

theorem hasEntry_concat_of_ne (h : ∀ body, line ≠ .entry body) :
    HasEntry (before ++ [line]) name key ↔ HasEntry before name key := by
  rw [hasEntry_concat, or_iff_left]
  rintro ⟨body, -, -, hline, -⟩
  exact h body hline

/-- A text obeys the rules with one line more if that line does. -/
theorem Obeys.concat (h : Obeys before) (hline : ∀ fault, ¬ Breaks before line fault) :
    Obeys (before ++ [line]) := by
  intro front last rest heq
  rcases List.eq_nil_or_concat rest with rfl | ⟨rest, other, rfl⟩
  · obtain ⟨rfl, hlast⟩ := List.append_inj' heq rfl
    exact List.singleton_inj.1 hlast ▸ hline
  · rw [List.concat_eq_append, ← List.cons_append, ← List.append_assoc] at heq
    exact h front last rest (List.append_inj' heq rfl).1

theorem obeys_nil : Obeys [] := by
  intro before line rest heq
  simp at heq

/-! ## The first fault -/

theorem FirstFault.not_obeys (h : FirstFault lines i fault) : ¬ Obeys lines := by
  obtain ⟨before, line, rest, heq, -, -, hbroken, -⟩ := h
  exact fun hobeys => hobeys before line rest heq fault hbroken

/-- A rule is broken with one fault. -/
theorem Breaks.eq_of_precedence (h : Breaks before line fault) (h' : Breaks before line fault')
    (hp : precedence fault = precedence fault') : fault = fault' := by
  cases h with
  | duplicateKey hparts _ _ =>
      cases h' with
      | duplicateKey hparts' _ _ => rw [(hparts.unique hparts').1]
      | _ => cases hp
  | _ => cases h' <;> first | rfl | cases hp

/-- No first fault stands behind another. -/
theorem FirstFault.le (h : FirstFault lines i fault) (h' : FirstFault lines i' fault') :
    i' ≤ i := by
  obtain ⟨before, line, rest, heq, rfl, -, hbroken, -⟩ := h
  obtain ⟨before', line', rest', heq', rfl, hobeys, -⟩ := h'
  rcases List.append_eq_append_iff.1 (heq.symm.trans heq') with
    ⟨more, hmore, hrest⟩ | ⟨more, hmore, -⟩
  · cases more with
    | nil => simp [hmore]
    | cons other more =>
        -- the second fault would have the first before it
        obtain ⟨rfl, -⟩ := List.cons.inj hrest
        exact absurd hbroken (hobeys before line more hmore fault)
  · simp [hmore]

/-- There is at most one first fault. -/
theorem FirstFault.unique (h : FirstFault lines i fault) (h' : FirstFault lines i' fault') :
    i = i' ∧ fault = fault' := by
  have hi : i = i' := Nat.le_antisymm (h'.le h) (h.le h')
  obtain ⟨before, line, rest, heq, hlength, -, hbroken, hfirst⟩ := h
  obtain ⟨before', line', rest', heq', hlength', -, hbroken', hfirst'⟩ := h'
  obtain ⟨rfl, hline⟩ := List.append_inj (heq.symm.trans heq') (by omega)
  obtain ⟨rfl, -⟩ := List.cons.inj hline
  have hprecedence := Nat.le_antisymm (hfirst _ hbroken') (hfirst' _ hbroken)
  exact ⟨hi, hbroken.eq_of_precedence hbroken' hprecedence⟩

/-- The first fault does not depend on what follows. -/
theorem FirstFault.congr {lines' : List Clause} (h : FirstFault lines i fault)
    (heq : lines'.take (i + 1) = lines.take (i + 1)) : FirstFault lines' i fault := by
  obtain ⟨before, line, rest, rfl, rfl, hobeys, hbroken⟩ := h
  refine ⟨before, line, lines'.drop (before.length + 1), ?_, rfl, hobeys, hbroken⟩
  have hfront : lines'.take (before.length + 1) = before ++ [line] := by
    rw [heq, List.append_cons, ← List.length_singleton (a := line), ← List.length_append,
      List.take_left']
    rfl
  rw [List.append_cons, ← hfront, List.take_append_drop]

/-! ## Well-formed texts -/

theorem sectionOf_eq_none_iff :
    sectionOf before = none ↔ ∀ line ∈ before, ∀ head, line ≠ .header head := by
  rw [sectionOf, List.getLast?_eq_none_iff, List.filterMap_eq_nil_iff]
  refine forall_congr' fun line => imp_congr_right fun _ => ?_
  cases line <;> simp [Clause.name?]

/-- A continuation does not stand behind ignored lines only. -/
theorem not_continuation {raws : List (List Char)} {rest : List Clause}
    (heq : clauses raws = before ++ line :: rest) (hbefore : ∀ c ∈ before, c.isIgnored) :
    line ≠ .continuation body := by
  have hline := getElem?_clauses raws before.length
  rw [heq, List.getElem?_append_right (Nat.le_refl _), Nat.sub_self, List.getElem?_cons_zero,
    List.take_left] at hline
  obtain ⟨raw, -, rfl⟩ := Option.map_eq_some_iff.1 hline.symm
  have hnone : nearest? before = none := by
    rw [nearest?, List.getLast?_eq_none_iff, List.filter_eq_nil_iff]
    exact fun c hc => by simp [hbefore c hc]
  intro hcontinuation
  rw [clause, hnone] at hcontinuation
  split at hcontinuation
  · cases hcontinuation
  · rw [if_neg (by simp)] at hcontinuation
    split at hcontinuation <;> cases hcontinuation

theorem WellFormed.obeys (h : WellFormed lines) : Obeys lines := by
  rintro before line rest rfl fault hbreaks
  cases hbreaks with
  | unterminatedHeader hlast => exact hlast (h.closed _ (by simp))
  | @keyOutsideSection body hnone =>
      -- the first line that is not ignored stands before this one, or is this one
      cases hfind : before.find? (!·.isIgnored) with
      | none =>
          obtain ⟨head, hhead⟩ := h.opened (.entry body) (by
            rw [List.find?_append, hfind, Option.none_or]
            rfl)
          cases hhead
      | some first =>
          obtain ⟨head, hhead⟩ := h.opened first (by rw [List.find?_append, hfind, Option.some_or])
          exact hnone first (List.mem_of_find?_eq_some hfind) head hhead
  | @missingDelimiter body hnone =>
      obtain ⟨left, right, hparts, -⟩ := h.keyed body (by simp)
      exact hparts.not_none hnone
  | @emptyKey body _ _ hparts hkey =>
      obtain ⟨left, right, hparts', hne⟩ := h.keyed body (by simp)
      exact hne ((hparts.unique hparts').1 ▸ hkey)
  | duplicateKey hparts hsection hdup => exact h.distinct _ _ _ _ _ _ rfl hsection hparts hdup

/-- A text is well-formed if no line breaks a rule. -/
theorem wellFormed_iff (raws : List (List Char)) :
    WellFormed (clauses raws) ↔ Obeys (clauses raws) := by
  refine ⟨WellFormed.obeys, fun h => ⟨?_, ?_, ?_, ?_⟩⟩
  · intro line hfind
    obtain ⟨hline, before, rest, heq, hbefore⟩ := List.find?_eq_some_iff_append.1 hfind
    have hignored : ∀ c ∈ before, c.isIgnored := fun c hc => by simpa using hbefore c hc
    cases line with
    | ignored => cases hline
    | header body => exact ⟨body, rfl⟩
    | continuation body => exact absurd rfl (not_continuation heq hignored)
    | entry body =>
        refine absurd (Breaks.keyOutsideSection fun c hc head hhead => ?_) (h _ _ _ heq _)
        simpa [hhead, Clause.isIgnored] using hignored c hc
  · intro body hmem
    obtain ⟨before, rest, heq⟩ := List.append_of_mem hmem
    exact Decidable.byContradiction fun hlast => h _ _ _ heq _ (.unterminatedHeader hlast)
  · intro body hmem
    obtain ⟨before, rest, heq⟩ := List.append_of_mem hmem
    rcases parts_or_none body with ⟨left, right, hparts⟩ | hnone
    · exact ⟨left, right, hparts, fun hkey => h _ _ _ heq _ (.emptyKey hparts hkey)⟩
    · exact absurd (.missingDelimiter hnone) (h _ _ _ heq _)
  · intro before body rest name left right heq hsection hparts hdup
    exact h _ _ _ heq _ (.duplicateKey hparts hsection hdup)

end

end BenchSweep.Ini
