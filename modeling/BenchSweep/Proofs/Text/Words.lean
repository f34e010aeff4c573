import BenchSweep.Proofs.Text.Lines
import BenchSweep.Proofs.Text.Trim

/-!
# Words of a text

* `Text.IsWord` : a text that is not empty and holds no blank.
* `Text.Spaced` : words in a text, with blanks between them.
* `Text.spaced_iff` : these are the words of the text.
* `Text.words_append_cons`, `Text.words_trim` : the words of two texts with a blank between them,
  and of a trimmed text.
-/

namespace BenchSweep.Text

/-- Is the text one word? -/
def IsWord (word : List Char) : Prop := word ≠ [] ∧ ∀ c ∈ word, isBlank c = false

/-- Do the words stand in the text, in their order, with blanks between them? -/
inductive Spaced : (row : List (List Char)) → (text : List Char) → Prop
  | nil {gap} (hgap : ∀ c ∈ gap, isBlank c = true) : Spaced [] gap
  | cons {gap word row rest} (hgap : ∀ c ∈ gap, isBlank c = true) (hword : IsWord word)
      (hapart : ∀ c, rest.head? = some c → isBlank c = true) (hrest : Spaced row rest) :
      Spaced (word :: row) (gap ++ word ++ rest)

variable {s t gap word text : List Char} {row : List (List Char)} {c : Char}

/-! ## Words and blanks -/

/-- A blank parts the words in front of it from those behind it. -/
theorem words_append_cons (hc : isBlank c = true) (s t : List Char) :
    words (s ++ c :: t) = words s ++ words t := by
  unfold words
  rw [pieces_append hc, List.filter_append]

theorem words_append_left (hgap : ∀ c ∈ gap, isBlank c = true) (s : List Char) :
    words (gap ++ s) = words s := by
  induction gap with
  | nil => rfl
  | cons c gap ih =>
      obtain ⟨hc, hgap⟩ := List.forall_mem_cons.1 hgap
      have hcons := words_append_cons hc [] (gap ++ s)
      rw [List.nil_append, words_nil, List.nil_append] at hcons
      rw [List.cons_append, hcons, ih hgap]

theorem words_append_right (hgap : ∀ c ∈ gap, isBlank c = true) (s : List Char) :
    words (s ++ gap) = words s := by
  cases gap with
  | nil => rw [List.append_nil]
  | cons c gap =>
      obtain ⟨hc, hgap⟩ := List.forall_mem_cons.1 hgap
      have hnone : words gap = [] := by simpa using words_append_left hgap []
      rw [words_append_cons hc, hnone, List.append_nil]

/-- Trimming takes no word away. -/
theorem words_trim (s : List Char) : words (trim s) = words s := by
  obtain ⟨left, right, hs, hleft, hright⟩ := exists_eq_append_trim s
  calc words (trim s) = words (left ++ trim s) := (words_append_left hleft _).symm
    _ = words (left ++ trim s ++ right) := (words_append_right hright _).symm
    _ = words s := by rw [← hs]

/-! ## Words in a text -/

theorem IsWord.words_eq (h : IsWord word) : words word = [word] := by
  rw [words, pieces_eq_singleton h.2]
  simp [h.1]

/-- The words of a text hold no blank, and none of them is empty. -/
theorem isWord_of_mem_words (h : word ∈ words s) : IsWord word :=
  ⟨ne_nil_of_mem_words h, eq_false_of_mem_pieces (List.mem_filter.1 h).1⟩

/-- A text with these words in it, and blanks between them, has these words. -/
theorem Spaced.words_eq (h : Spaced row text) : words text = row := by
  induction h with
  | nil hgap => simpa using words_append_left hgap []
  | @cons gap word row rest hgap hword hapart _ ih =>
      rw [List.append_assoc, words_append_left hgap]
      cases rest with
      | nil => rw [List.append_nil, hword.words_eq, ← ih, words_nil]
      | cons c rest =>
          have hc : isBlank c = true := hapart c rfl
          have hrest := words_append_cons hc [] rest
          rw [List.nil_append, words_nil, List.nil_append] at hrest
          rw [words_append_cons hc, hword.words_eq, ← hrest, ih]
          rfl

theorem Spaced.blank_cons (hc : isBlank c = true) (h : Spaced row text) :
    Spaced row (c :: text) := by
  cases h with
  | nil hgap => exact .nil (List.forall_mem_cons.2 ⟨hc, hgap⟩)
  | cons hgap hword hapart hrest =>
      have hcons := Spaced.cons (List.forall_mem_cons.2 ⟨hc, hgap⟩) hword hapart hrest
      exact hcons

/-- Every text has its words in it, with blanks between them. -/
theorem spaced_words (text : List Char) : Spaced (words text) text := by
  generalize hlength : text.length = length
  induction length using Nat.strongRecOn generalizing text with
  | ind length ih =>
      cases text with
      | nil => exact .nil (by simp)
      | cons c text =>
          by_cases hc : isBlank c = true
          · have hskip := words_append_left (List.forall_mem_singleton.2 hc) text
            rw [List.singleton_append] at hskip
            rw [hskip]
            exact (ih text.length (by simp [← hlength]) text rfl).blank_cons hc
          · -- the first word, and what is behind it
            let word := (c :: text).takeWhile (!isBlank ·)
            let rest := (c :: text).dropWhile (!isBlank ·)
            have hsplit : word ++ rest = c :: text := List.takeWhile_append_dropWhile
            have hword : IsWord word := by
              refine ⟨by simp [word, hc], fun d hd => ?_⟩
              simpa using List.all_eq_true.1 List.all_takeWhile d hd
            have hapart : ∀ d, rest.head? = some d → isBlank d = true := by
              intro d hd
              simpa [rest, hd] using List.head?_dropWhile_not (!isBlank ·) (c :: text)
            have hlt : rest.length < length := by
              have hsum := congrArg List.length hsplit
              have hpos := List.length_pos_iff.2 hword.1
              rw [List.length_append] at hsum
              omega
            have hcons := @Spaced.cons [] word (words rest) rest (by simp) hword hapart
              (ih rest.length hlt rest rfl)
            rw [List.nil_append, hsplit] at hcons
            rwa [← hcons.words_eq] at hcons

/-- The words of a text are those that stand in it with blanks between them. -/
theorem spaced_iff : Spaced row text ↔ words text = row := by
  constructor
  · exact Spaced.words_eq
  · rintro rfl
    exact spaced_words text

theorem IsWord.isTrimmed (h : IsWord word) : IsTrimmed word :=
  ⟨fun _ hc => h.2 _ (List.mem_of_head? hc), fun _ hc => h.2 _ (List.mem_of_getLast? hc)⟩

/-- A text that holds one word is, between blanks, that word. -/
theorem Spaced.trim_eq (h : Spaced [word] text) : trim text = word := by
  cases h with
  | cons hgap hword _ hrest =>
      cases hrest with
      | nil hblank => exact trim_append hgap hword.isTrimmed hblank

/-- A row of words can be written, each behind a blank. -/
theorem spaced_flatMap (h : ∀ word ∈ row, IsWord word) :
    Spaced row (row.flatMap (' ' :: ·)) := by
  induction row with
  | nil => exact .nil (by simp)
  | cons word row ih =>
      obtain ⟨hword, hrow⟩ := List.forall_mem_cons.1 h
      have hblank : ∀ c ∈ [' '], isBlank c = true := List.all_eq_true.1 rfl
      refine .cons hblank hword ?_ (ih hrow)
      intro c hc
      cases row with
      | nil => cases hc
      | cons next row =>
          obtain rfl := Option.some.inj hc
          rfl

end BenchSweep.Text
