import BenchSweep.Text.Blank
import BenchSweep.Text.Lowercase

/-!
# What lower case makes

Lower-casing goes by a table of runs of letters.  What it makes of a letter lies outside of all
runs, and it is no character with a meaning in a sectioned text.

* `Text.IsLower` : a character that is its own lower-case form wherever it stands.
* `Text.lowercase_lowercase` : lower-casing twice is lower-casing once.
* `Text.mem_of_mem_lowercase` : blanks, delimiters and marks in the lower-case form of a text
  stand in the text itself; `Text.isMeaning` says which characters these are.
-/

namespace BenchSweep.Text

/-! ## Runs of letters -/

/-- Characters that have a meaning in a sectioned text: blanks, delimiters, and the marks of
headers and comments. -/
def isMeaning (c : Char) : Bool := isBlank c || ['=', ':', '[', '#', ';'].contains c

/-- The ranges of the characters with a meaning, and the code point of `İ`, which is in no run. -/
def meaningRanges : List (Nat × Nat) :=
  [(0x09, 0x0D), (0x20, 0x20), (0x85, 0x85), (0xA0, 0xA0), (0x1680, 0x1680), (0x2000, 0x200A),
    (0x2028, 0x2029), (0x202F, 0x202F), (0x205F, 0x205F), (0x3000, 0x3000), (0x3D, 0x3D),
    (0x3A, 0x3A), (0x5B, 0x5B), (0x23, 0x23), (0x3B, 0x3B), (0x130, 0x130)]

/-- The code point that the run makes of a code point. -/
def CaseRun.image (r : CaseRun) (n : Nat) : Nat := (n + r.shift).toNat

/-- Does the run take its letters to none of the range? -/
def CaseRun.avoidsRange (r : CaseRun) (range : Nat × Nat) : Bool :=
  (r.image r.last).blt range.1 || range.2.blt (r.image r.first)

/-- Does the run take its letters to none of another run?  Runs that cross take every other code
point, one the even and the other the odd ones. -/
def CaseRun.avoids (r q : CaseRun) : Bool :=
  r.avoidsRange (q.first, q.last) ||
    ((r.step.beq 2 || r.first.beq r.last) && q.step.beq 2 &&
      ((r.image r.first + q.first) % 2).beq 1)

-- compared by `Nat.blt` and `Nat.beq`, which the kernel evaluates at once
theorem caseRuns_avoid :
    caseRuns.all (fun r => (-r.shift).toNat.ble r.first && caseRuns.all r.avoids &&
      meaningRanges.all r.avoidsRange) = true := by
  decide +kernel

theorem CaseRun.holds_iff {r : CaseRun} {n : Nat} :
    r.holds n ↔ r.first ≤ n ∧ n ≤ r.last ∧ (n - r.first) % r.step = 0 := by
  simp [holds, and_assoc]

theorem CaseRun.not_mem_of_avoidsRange {r : CaseRun} {range : Nat × Nat} {n : Nat}
    (h : r.avoidsRange range) (hn : r.holds n) :
    ¬ (range.1 ≤ r.image n ∧ r.image n ≤ range.2) := by
  rw [holds_iff] at hn
  simp only [avoidsRange, image, Bool.or_eq_true, Nat.blt_eq] at h ⊢
  omega

theorem CaseRun.not_holds_of_avoids {r q : CaseRun} {n : Nat} (h : r.avoids q) (hn : r.holds n)
    (hshift : (-r.shift).toNat ≤ r.first) : q.holds (r.image n) = false := by
  rw [← Bool.not_eq_true]
  intro hq
  simp only [avoids, Bool.or_eq_true, Bool.and_eq_true, Nat.beq_eq] at h
  rcases h with h | ⟨⟨hr, hstep⟩, hodd⟩
  · have hq := holds_iff.1 hq
    exact not_mem_of_avoidsRange h hn ⟨hq.1, hq.2.1⟩
  · obtain ⟨hfirst, hlast, hn⟩ := holds_iff.1 hn
    obtain ⟨hqfirst, -, hq⟩ := holds_iff.1 hq
    rw [hstep] at hq
    unfold image at hqfirst hodd hq
    rcases hr with hr | hr
    · rw [hr] at hn
      omega
    · omega

/-! ## Single characters -/

/-- A character that is its own lower-case form wherever it stands. -/
def IsLower (c : Char) : Prop := lowerChar c = [c] ∧ c ≠ 'Σ'

instance (c : Char) : Decidable (IsLower c) := inferInstanceAs (Decidable (_ ∧ _))

theorem mem_meaningRanges_of_isMeaning {c : Char} (h : isMeaning c) :
    ∃ range ∈ meaningRanges, range.1 ≤ c.toNat ∧ c.toNat ≤ range.2 := by
  simp only [isMeaning, isBlank, Bool.or_eq_true, Bool.and_eq_true, decide_eq_true_eq, beq_iff_eq,
    List.contains_iff_mem, List.mem_cons, List.not_mem_nil, or_false] at h
  rcases h with h | rfl | rfl | rfl | rfl | rfl
  · simp only [meaningRanges, List.mem_cons, List.not_mem_nil, or_false, exists_eq_or_imp,
      exists_eq_left]
    omega
  all_goals decide

/-- What a run makes of a letter is settled, and has no meaning. -/
theorem isLower_of_run {r : CaseRun} {n : Nat} (hr : r ∈ caseRuns) (hn : r.holds n) :
    IsLower (Char.ofNat (r.image n)) ∧ isMeaning (Char.ofNat (r.image n)) = false := by
  have havoid := List.all_eq_true.1 caseRuns_avoid r hr
  simp only [Bool.and_eq_true, List.all_eq_true, Nat.ble_eq] at havoid
  obtain ⟨⟨hshift, havoid⟩, hranges⟩ := havoid
  generalize hd : Char.ofNat (r.image n) = d
  by_cases hvalid : (r.image n).isValidChar
  · -- the code point lies in no run and in no range of characters with a meaning
    have hm : d.toNat = r.image n := by
      rw [← hd, Char.ofNat, dif_pos hvalid]
      rfl
    have hruns (q : CaseRun) (hq : q ∈ caseRuns) : q.holds d.toNat = false :=
      hm ▸ CaseRun.not_holds_of_avoids (havoid q hq) hn hshift
    have hrange (range : Nat × Nat) (h : range ∈ meaningRanges) :
        ¬ (range.1 ≤ d.toNat ∧ d.toNat ≤ range.2) :=
      hm ▸ CaseRun.not_mem_of_avoidsRange (hranges range h) hn
    have hmeaning : isMeaning d = false := by
      rw [← Bool.not_eq_true]
      intro h
      obtain ⟨range, hmem, hin⟩ := mem_meaningRanges_of_isMeaning h
      exact hrange range hmem hin
    refine ⟨⟨?_, ?_⟩, hmeaning⟩
    · have hdot : d.toNat ≠ 0x130 := fun h =>
        hrange (0x130, 0x130) (by simp [meaningRanges]) ⟨Nat.le_of_eq h.symm, Nat.le_of_eq h⟩
      have hfind : caseRuns.find? (·.holds d.toNat) = none := by simpa using hruns
      rw [lowerChar, if_neg hdot, hfind]
      split
      · -- of the ASCII letters only those of the first run change
        have hupper := hruns ⟨0x41, 0x5A, 1, 32⟩ (List.mem_of_getElem? (i := 0) rfl)
        rw [← Bool.not_eq_true, CaseRun.holds_iff] at hupper
        simp only [Nat.mod_one, and_true] at hupper
        rw [show d.toLower = d from dif_neg hupper]
      · rfl
    · intro h
      have hsigma : caseRuns.any (·.holds 'Σ'.toNat) = true := by decide
      obtain ⟨q, hq, hholds⟩ := List.any_eq_true.1 hsigma
      rw [← h, hruns q hq] at hholds
      cases hholds
  · have hzero : d = Char.ofNat 0 := by
      rw [← hd, Char.ofNat, dif_neg hvalid]
      rfl
    rw [hzero]
    decide +kernel

/-- A character is its own lower-case form, or that form is settled and has no meaning. -/
theorem lowerChar_cases (c : Char) :
    lowerChar c = [c] ∨ ∀ d ∈ lowerChar c, IsLower d ∧ isMeaning d = false := by
  by_cases hascii : c.toNat < 0x80
  · have htable : ∀ n < 0x80, lowerChar (Char.ofNat n) = [Char.ofNat n] ∨
        (lowerChar (Char.ofNat n)).all (fun d => IsLower d ∧ isMeaning d = false) = true := by
      decide +kernel
    simpa using htable c.toNat hascii
  by_cases hdot : c.toNat = 0x130
  · right
    rw [lowerChar, if_neg hascii, if_pos hdot, List.forall_mem_cons, List.forall_mem_singleton]
    decide +kernel
  · rw [lowerChar, if_neg hascii, if_neg hdot]
    cases hfind : caseRuns.find? (·.holds c.toNat) with
    | none => exact Or.inl rfl
    | some r =>
        right
        intro d hd
        obtain rfl := List.mem_singleton.1 hd
        have hholds : r.holds c.toNat := by simpa using List.find?_some hfind
        exact isLower_of_run (List.mem_of_find?_eq_some hfind) hholds

/-! ## Texts -/

variable {before s : List Char} {d : Char}

/-- What a character adds to the lower-case form of a text: itself, or settled characters without
a meaning. -/
theorem lowercaseAfter_cons (before s : List Char) (c : Char) :
    ∃ made, lowercaseAfter before (c :: s) = made ++ lowercaseAfter (c :: before) s ∧ made ≠ [] ∧
      (made = [c] ∧ IsLower c ∨ ∀ d ∈ made, IsLower d ∧ isMeaning d = false) := by
  refine ⟨_, rfl, ?_⟩
  split
  · -- both forms of a sigma are settled
    refine ⟨by simp, Or.inr fun d hd => ?_⟩
    obtain rfl := List.mem_singleton.1 hd
    split <;> decide +kernel
  · rename_i hsigma
    rcases lowerChar_cases c with hc | hc
    · exact ⟨by simp [hc], Or.inl ⟨hc, hc, hsigma⟩⟩
    · refine ⟨?_, Or.inr hc⟩
      unfold lowerChar
      repeat' split
      all_goals simp

theorem lowercaseAfter_eq_nil_iff : lowercaseAfter before s = [] ↔ s = [] := by
  cases s with
  | nil => simp [lowercaseAfter]
  | cons c s =>
      obtain ⟨made, hmade, hne, -⟩ := lowercaseAfter_cons before s c
      simp [hmade, hne]

/-- Only the empty text has an empty lower-case form. -/
@[simp] theorem lowercase_eq_nil_iff : lowercase s = [] ↔ s = [] := lowercaseAfter_eq_nil_iff

theorem mem_lowercaseAfter (h : d ∈ lowercaseAfter before s) :
    IsLower d ∧ (d ∈ s ∨ isMeaning d = false) := by
  induction s generalizing before with
  | nil => cases h
  | cons c s ih =>
      obtain ⟨made, hmade, -, hcases⟩ := lowercaseAfter_cons before s c
      rw [hmade, List.mem_append] at h
      rcases h with h | h
      · rcases hcases with ⟨rfl, hlower⟩ | hnew
        · obtain rfl := List.mem_singleton.1 h
          exact ⟨hlower, Or.inl List.mem_cons_self⟩
        · exact ⟨(hnew d h).1, Or.inr (hnew d h).2⟩
      · obtain ⟨hlower, hmem⟩ := ih h
        exact ⟨hlower, hmem.imp_left (List.mem_cons_of_mem c)⟩

/-- A character with a meaning in the lower-case form of a text stands in the text itself. -/
theorem mem_of_mem_lowercase (h : d ∈ lowercase s) (hd : isMeaning d = true) : d ∈ s := by
  rcases (mem_lowercaseAfter h).2 with hmem | hnone
  · exact hmem
  · simp [hd] at hnone

theorem lowercaseAfter_eq_self (h : ∀ c ∈ s, IsLower c) : lowercaseAfter before s = s := by
  induction s generalizing before with
  | nil => rfl
  | cons c s ih =>
      obtain ⟨hc, hsigma⟩ := h c List.mem_cons_self
      rw [lowercaseAfter, ih fun d hd => h d (List.mem_cons_of_mem c hd), if_neg hsigma, hc]
      rfl

/-- Lower-casing twice is lower-casing once. -/
theorem lowercase_lowercase (s : List Char) : lowercase (lowercase s) = lowercase s :=
  lowercaseAfter_eq_self fun _ h => (mem_lowercaseAfter h).1

/-- A lower-case form starts with a character that has a meaning only if the text does. -/
theorem head?_of_lowercase (h : (lowercase s).head? = some d) (hd : isMeaning d = true) :
    s.head? = some d := by
  cases s with
  | nil => cases h
  | cons c s =>
      obtain ⟨made, hmade, hne, hcases⟩ := lowercaseAfter_cons [] s c
      rw [lowercase, hmade, List.head?_append, List.head?_eq_some_head hne, Option.some_or] at h
      rcases hcases with ⟨rfl, -⟩ | hnew
      · exact h
      · obtain rfl := Option.some.inj h
        have hnone := (hnew _ (List.head_mem hne)).2
        simp [hd] at hnone

theorem getLast?_of_lowercaseAfter (h : (lowercaseAfter before s).getLast? = some d)
    (hd : isMeaning d = true) : s.getLast? = some d := by
  induction s generalizing before with
  | nil => cases h
  | cons c s ih =>
      obtain ⟨made, hmade, hne, hcases⟩ := lowercaseAfter_cons before s c
      rw [hmade] at h
      by_cases hs : s = []
      · subst hs
        rw [lowercaseAfter, List.append_nil] at h
        rcases hcases with ⟨rfl, -⟩ | hnew
        · exact h
        · have hnone := (hnew d (List.mem_of_getLast? h)).2
          simp [hd] at hnone
      · have hrest_ne : lowercaseAfter (c :: before) s ≠ [] := mt lowercaseAfter_eq_nil_iff.1 hs
        have hrest := List.getLast?_eq_some_getLast hrest_ne
        rw [List.getLast?_append, hrest, Option.some_or, ← hrest] at h
        rw [List.getLast?_cons_of_ne_nil hs]
        exact ih h

/-- A lower-case form ends with a character that has a meaning only if the text does. -/
theorem getLast?_of_lowercase (h : (lowercase s).getLast? = some d) (hd : isMeaning d = true) :
    s.getLast? = some d :=
  getLast?_of_lowercaseAfter h hd

end BenchSweep.Text
