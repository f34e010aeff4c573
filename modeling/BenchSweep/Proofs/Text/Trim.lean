import BenchSweep.Text.Blank

/-!
# Trimmed texts

* `Text.IsTrimmed` : a text without blanks at its ends.
* `Text.isTrimmed_trim`, `Text.exists_eq_append_trim` : trimming takes blanks away, and all of
  them.
* `Text.trim_append`, `Text.trim_append_left`, `Text.trim_append_right` : blanks around a text do
  not count.
-/

namespace BenchSweep.Text

/-- A text that neither starts nor ends with a blank. -/
structure IsTrimmed (s : List Char) : Prop where
  head : ∀ c, s.head? = some c → isBlank c = false
  last : ∀ c, s.getLast? = some c → isBlank c = false

variable {s left right : List Char} {c : Char}

/-! ## What is taken away -/

/-- In front, only blanks are taken away. -/
theorem exists_eq_append_trimStart (s : List Char) :
    ∃ left, s = left ++ trimStart s ∧ ∀ c ∈ left, isBlank c = true := by
  refine ⟨s.takeWhile isBlank, List.takeWhile_append_dropWhile.symm, ?_⟩
  exact List.all_eq_true.1 List.all_takeWhile

/-- Behind, only blanks are taken away. -/
theorem exists_eq_trimEnd_append (s : List Char) :
    ∃ right, s = trimEnd s ++ right ∧ ∀ c ∈ right, isBlank c = true := by
  obtain ⟨left, hs, hleft⟩ := exists_eq_append_trimStart s.reverse
  refine ⟨left.reverse, ?_, fun c hc => hleft c (List.mem_reverse.1 hc)⟩
  rw [trimEnd, ← List.reverse_append, ← trimStart, ← hs, List.reverse_reverse]

/-- Only blanks are taken away. -/
theorem exists_eq_append_trim (s : List Char) :
    ∃ left right, s = left ++ trim s ++ right ∧ (∀ c ∈ left, isBlank c = true) ∧
      ∀ c ∈ right, isBlank c = true := by
  obtain ⟨left, hs, hleft⟩ := exists_eq_append_trimStart s
  obtain ⟨right, ht, hright⟩ := exists_eq_trimEnd_append (trimStart s)
  refine ⟨left, right, ?_, hleft, hright⟩
  rw [trim, List.append_assoc, ← ht, ← hs]

theorem mem_of_mem_trim (h : c ∈ trim s) : c ∈ s := by
  obtain ⟨left, right, hs, -, -⟩ := exists_eq_append_trim s
  rw [hs]
  exact List.mem_append_left right (List.mem_append_right left h)

/-- What is no blank is not trimmed away. -/
theorem mem_trim_of_mem (h : c ∈ s) (hc : isBlank c = false) : c ∈ trim s := by
  obtain ⟨left, right, hs, hleft, hright⟩ := exists_eq_append_trim s
  rw [hs, List.mem_append, List.mem_append] at h
  rcases h with (hmem | hmem) | hmem
  · rw [hleft c hmem] at hc
    cases hc
  · exact hmem
  · rw [hright c hmem] at hc
    cases hc

/-! ## What is left -/

theorem isBlank_head_trimStart (h : (trimStart s).head? = some c) : isBlank c = false := by
  have hhead := List.head?_dropWhile_not isBlank s
  rw [← trimStart, h] at hhead
  exact hhead

theorem isBlank_getLast_trimEnd (h : (trimEnd s).getLast? = some c) : isBlank c = false := by
  rw [trimEnd, List.getLast?_reverse] at h
  exact isBlank_head_trimStart h

/-- All blanks at the ends are taken away. -/
theorem isTrimmed_trim (s : List Char) : IsTrimmed (trim s) := by
  constructor
  · intro c hc
    -- what is taken away behind does not change the head
    obtain ⟨right, ht, -⟩ := exists_eq_trimEnd_append (trimStart s)
    apply isBlank_head_trimStart (s := s)
    rw [ht, List.head?_append, ← trim, hc]
    rfl
  · intro c hc
    exact isBlank_getLast_trimEnd hc

theorem trimStart_of_head (h : ∀ c, s.head? = some c → isBlank c = false) : trimStart s = s := by
  cases s with
  | nil => rfl
  | cons c s => rw [trimStart, List.dropWhile_cons_of_neg (by simp [h c rfl])]

theorem trimEnd_of_last (h : ∀ c, s.getLast? = some c → isBlank c = false) : trimEnd s = s := by
  have hreverse : trimStart s.reverse = s.reverse := trimStart_of_head (by simpa using h)
  rw [trimEnd, ← trimStart, hreverse, List.reverse_reverse]

theorem trimStart_append (hleft : ∀ c ∈ left, isBlank c = true) :
    trimStart (left ++ s) = trimStart s :=
  List.dropWhile_append_of_pos hleft

theorem trimEnd_append (hright : ∀ c ∈ right, isBlank c = true) :
    trimEnd (s ++ right) = trimEnd s := by
  rw [trimEnd, List.reverse_append,
    List.dropWhile_append_of_pos fun c hc => hright c (List.mem_reverse.1 hc), trimEnd]

/-- A trimmed text is what is left between blanks. -/
theorem trim_append (hleft : ∀ c ∈ left, isBlank c = true) (h : IsTrimmed s)
    (hright : ∀ c ∈ right, isBlank c = true) : trim (left ++ s ++ right) = s := by
  rw [List.append_assoc, trim, trimStart_append hleft]
  cases s with
  | nil =>
      rw [List.nil_append, ← List.append_nil right, trimStart_append hright]
      rfl
  | cons c s =>
      have hhead : ∀ d, (c :: s ++ right).head? = some d → isBlank d = false := h.head
      rw [trimStart_of_head hhead, trimEnd_append hright, trimEnd_of_last h.last]

theorem IsTrimmed.trim (h : IsTrimmed s) : trim s = s := by
  have hnone : ∀ c ∈ ([] : List Char), isBlank c = true := by simp
  simpa using trim_append hnone h hnone

/-- Blanks in front do not count. -/
theorem trim_append_left (hleft : ∀ c ∈ left, isBlank c = true) : trim (left ++ s) = trim s := by
  rw [trim, trimStart_append hleft, trim]

/-- Blanks behind do not count. -/
theorem trim_append_right (hright : ∀ c ∈ right, isBlank c = true) :
    trim (s ++ right) = trim s := by
  obtain ⟨front, back, hs, hfront, hback⟩ := exists_eq_append_trim s
  have hblank : ∀ c ∈ back ++ right, isBlank c = true := fun c hc =>
    (List.mem_append.1 hc).elim (hback c) (hright c)
  have happend := trim_append hfront (isTrimmed_trim s) hblank
  rwa [← List.append_assoc, ← hs] at happend

/-- Blanks that were taken away behind do not count. -/
theorem trim_trimEnd (s : List Char) : trim (trimEnd s) = trim s := by
  obtain ⟨right, hs, hright⟩ := exists_eq_trimEnd_append s
  calc trim (trimEnd s) = trim (trimEnd s ++ right) := (trim_append_right hright).symm
    _ = trim s := by rw [← hs]

/-- Behind a trimmed text, only blanks at the end are taken away. -/
theorem IsTrimmed.trim_append (h : IsTrimmed s) (hne : s ≠ []) (t : List Char) :
    Text.trim (s ++ t) = s ++ trimEnd t := by
  have htrimmed : IsTrimmed (s ++ trimEnd t) := by
    constructor
    · intro c hc
      rw [List.head?_append, List.head?_eq_some_head hne, Option.some_or] at hc
      exact h.head c (List.head?_eq_some_head hne ▸ hc)
    · intro c hc
      rw [List.getLast?_append] at hc
      cases hlast : (trimEnd t).getLast? with
      | none =>
          rw [hlast, Option.none_or] at hc
          exact h.last c hc
      | some d =>
          rw [hlast, Option.some_or] at hc
          exact isBlank_getLast_trimEnd (hlast.trans hc)
  obtain ⟨right, ht, hright⟩ := exists_eq_trimEnd_append t
  calc Text.trim (s ++ t) = Text.trim (s ++ trimEnd t ++ right) := by
        rw [List.append_assoc, ← ht]
    _ = Text.trim (s ++ trimEnd t) := trim_append_right hright
    _ = s ++ trimEnd t := htrimmed.trim

/-- A text is trimmed if trimming changes nothing. -/
theorem trim_eq_self_iff : trim s = s ↔ IsTrimmed s :=
  ⟨fun h => h ▸ isTrimmed_trim s, IsTrimmed.trim⟩

/-- A text is trimmed if it starts with a trimmed text and ends with one. -/
theorem IsTrimmed.append (hleft : IsTrimmed left) (hleft' : left ≠ []) (hright : IsTrimmed right)
    (hright' : right ≠ []) : IsTrimmed (left ++ s ++ right) := by
  constructor
  · intro c hc
    rw [List.append_assoc, List.head?_append, List.head?_eq_some_head hleft', Option.some_or] at hc
    exact hleft.head c (List.head?_eq_some_head hleft' ▸ hc)
  · intro c hc
    rw [List.getLast?_append, List.getLast?_eq_some_getLast hright', Option.some_or] at hc
    exact hright.last c (List.getLast?_eq_some_getLast hright' ▸ hc)

/-- A text that a trimmed one starts with keeps its head when it is trimmed. -/
theorem head?_trim_of_isTrimmed_append (h : IsTrimmed (s ++ right)) (hne : trim s ≠ []) :
    (trim s).head? = (s ++ right).head? := by
  have hstart : trimStart s = s := trimStart_of_head fun c hc => h.head c (by
    rw [List.head?_append, hc]
    rfl)
  obtain ⟨back, hback, -⟩ := exists_eq_trimEnd_append s
  rw [trim, hstart] at hne ⊢
  obtain ⟨c, tail, hc⟩ := List.exists_cons_of_ne_nil hne
  calc (trimEnd s).head? = (trimEnd s ++ back ++ right).head? := by rw [hc]; rfl
    _ = (s ++ right).head? := by rw [← hback]

/-- A text that does not start with a blank keeps its head when it is trimmed. -/
theorem head?_trim_of_head (h : s.head? = some c) (hc : isBlank c = false) :
    (trim s).head? = some c := by
  have hstart : trimStart s = s := by
    apply trimStart_of_head
    intro d hd
    rw [h] at hd
    rwa [← Option.some.inj hd]
  obtain ⟨right, hs, hright⟩ := exists_eq_trimEnd_append s
  rw [trim, hstart]
  cases hend : trimEnd s with
  | nil =>
      -- all of the text would be blank
      rw [hend, List.nil_append] at hs
      have hblank := hright c (hs ▸ List.mem_of_head? h)
      rw [hc] at hblank
      cases hblank
  | cons d tail =>
      rw [hs, hend] at h
      exact h

theorem IsTrimmed.getLast?_ne (h : IsTrimmed s) (hc : isBlank c = true) : s.getLast? ≠ some c :=
  fun hlast => by simp [h.last c hlast] at hc

/-- Trimming twice is trimming once. -/
@[simp] theorem trim_trim (s : List Char) : trim (trim s) = trim s := (isTrimmed_trim s).trim

end BenchSweep.Text
