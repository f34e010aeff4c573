import Mathlib.Data.List.TakeDrop
import BenchSweep.Settings.Token

/-!
# Scanning what was written

How the tokens of settings are found again in a text that is made of them, with spaces in front of
each.

* `Token.scan?_behind` : the first token of a text, and then those of the rest.
* `Token.scan?_word`, `Token.scan?_quoted` : a bare word, and a text between quotation marks.
* `Token.Trail.scan?_text`, `Token.Trail.scan?_text_lineEnd` : a comment reaches to the end of its
  line.
* `Token.eq_cons_of_scan?` : whatever follows it, the first token stays the first.
-/

namespace BenchSweep.Settings.Token

/-! ## Characters -/

/-- Does the character stand for itself between quotation marks? -/
def IsSimple (c : Char) : Prop := isPlain c = true ∧ c ≠ '"' ∧ c ≠ '\\'

instance (c : Char) : Decidable (IsSimple c) := inferInstanceAs (Decidable (_ ∧ _ ∧ _))

/-- Spaces and tabs. -/
def Spaces (s : List Char) : Prop := ∀ c ∈ s, isSpace c = true

instance (s : List Char) : Decidable (Spaces s) :=
  decidable_of_iff (s.all isSpace = true) List.all_eq_true

variable {front word name remark rest left s : List Char} {token : Token} {c : Char}

theorem spaces_nil : Spaces [] := by simp [Spaces]

theorem isSpace_iff : isSpace c = true ↔ c = ' ' ∨ c = '\t' := by simp [isSpace]

/-- No character of a word is a space. -/
theorem not_isSpace_of_isWordChar (h : isWordChar c = true) : isSpace c = false := by
  rw [Bool.eq_false_iff]
  intro hspace
  rcases isSpace_iff.1 hspace with rfl | rfl <;> exact absurd h (by decide)

/-! ## What is skipped -/

/-- Spaces in front are skipped. -/
theorem skip_append (hfront : Spaces front) (s : List Char) : skip (front ++ s) = skip s := by
  rw [skip, skip, List.dropWhile_append_of_pos hfront]

/-- Only the spaces are skipped in front of what is neither a space nor a comment. -/
theorem skip_append_cons (hfront : Spaces front) (hspace : isSpace c = false) (hremark : c ≠ '#')
    (s : List Char) : skip (front ++ c :: s) = c :: s := by
  rw [skip_append hfront, skip, List.dropWhile_cons_of_neg (by simp [hspace])]
  split
  · next rest heq => exact absurd (List.cons.inj heq).1 hremark
  · rfl

/-- A comment is skipped up to the end of its line. -/
theorem skip_sign (hremark : ∀ c ∈ remark, isPlain c = true) (s : List Char) :
    skip ('#' :: (remark ++ s)) = s.dropWhile isPlain := by
  rw [skip, List.dropWhile_cons_of_neg (by decide)]
  exact List.dropWhile_append_of_pos hremark

/-! ## The first token -/

/-- One token is taken after the other, as long as the text gets shorter. -/
theorem scan?_of_next? (h : next? (skip s) = some (token, rest)) :
    scan? s = if rest.length < s.length then (scan? rest).map (token :: ·) else none := by
  have hne : (skip s).isEmpty = false := by
    rw [Bool.eq_false_iff, Ne, List.isEmpty_iff]
    intro hnil
    rw [hnil] at h
    cases h
  rw [scan?, hne, h]
  rfl

/-- The tokens of a text are its first one and those of the rest. -/
theorem scan?_behind (hfront : Spaces front) (hspace : isSpace c = false) (hremark : c ≠ '#')
    (h : next? (c :: s) = some (token, rest)) (hlength : rest.length ≤ s.length) :
    scan? (front ++ c :: s) = (scan? rest).map (token :: ·) := by
  rw [← skip_append_cons hfront hspace hremark s] at h
  rw [scan?_of_next? h, if_pos]
  simp
  omega

/-- Whatever follows it, the first token stays the first. -/
theorem eq_cons_of_scan? {tokens : List Token} (hfront : Spaces front)
    (hspace : isSpace c = false) (hremark : c ≠ '#') (h : next? (c :: s) = some (token, rest))
    (hscan : scan? (front ++ c :: s) = some tokens) : ∃ others, tokens = token :: others := by
  rw [← skip_append_cons hfront hspace hremark s] at h
  rw [scan?_of_next? h] at hscan
  split at hscan
  · obtain ⟨others, -, rfl⟩ := Option.map_eq_some_iff.1 hscan
    exact ⟨others, rfl⟩
  · cases hscan

/-! ## Words -/

/-- The first token is a bare word if what follows is none of its characters. -/
theorem next?_word (hword : ∀ c ∈ word, isWordChar c = true) (hne : word ≠ [])
    (hrest : ∀ c ∈ rest.head?, isWordChar c = false) :
    next? (word ++ rest) = some (.word word, rest) := by
  obtain ⟨c, word, rfl⟩ := List.exists_cons_of_ne_nil hne
  have hspan : (c :: word ++ rest).span isWordChar = (c :: word, rest) := by
    rw [List.span_eq_takeWhile_dropWhile, List.takeWhile_append_of_pos hword,
      List.dropWhile_append_of_pos hword]
    cases rest with
    | nil => simp
    | cons d rest => simp [hrest d rfl]
  have hc := hword c List.mem_cons_self
  rw [List.cons_append] at hspan ⊢
  -- no character of a word starts any other token
  rw [next?.eq_def]
  split
  case h_11 => rw [hspan]
  all_goals
    next heq =>
      obtain rfl := (List.cons.inj heq).1
      exact absurd hc (by decide)

/-- A bare word in front of what is none of its characters is one token. -/
theorem scan?_word (hfront : Spaces front) (hword : ∀ c ∈ word, isWordChar c = true)
    (hne : word ≠ []) (hrest : ∀ c ∈ rest.head?, isWordChar c = false) :
    scan? (front ++ (word ++ rest)) = (scan? rest).map (.word word :: ·) := by
  have hnext := next?_word hword hne hrest
  obtain ⟨c, word, rfl⟩ := List.exists_cons_of_ne_nil hne
  have hc := hword c List.mem_cons_self
  have hsign : c ≠ '#' := by
    rintro rfl
    exact absurd hc (by decide)
  exact scan?_behind hfront (not_isSpace_of_isWordChar hc) hsign hnext (by simp)

/-! ## Quoted texts -/

/-- A character in front of what was found. -/
theorem withChar_eq_some_iff {found : Option (List Char × List Char)} :
    withChar c found = some (name, left) ↔
      ∃ text, found = some (text, left) ∧ name = c :: text := by
  rcases found with _ | ⟨text, rest⟩
  · simp [withChar]
  · simp [withChar]
    grind

/-- An escaped character in front of what was found. -/
theorem withHex_eq_some_iff {digits : List Char} {found : Option (List Char × List Char)} :
    withHex digits found = some (name, left) ↔
      ∃ c, (hexValue? digits).bind scalar? = some c ∧ withChar c found = some (name, left) := by
  rw [withHex, Option.bind_eq_some_iff]

/-- A simple character between quotation marks stands for itself. -/
theorem basic?_cons (hc : IsSimple c) (s : List Char) :
    basic? (c :: s) = withChar c (basic? s) := by
  obtain ⟨hplain, hquote, hescape⟩ := hc
  simp [basic?, hplain, hescape]

/-- A text of simple characters is read up to the quotation mark behind it. -/
theorem basic?_append (hname : ∀ c ∈ name, IsSimple c) (rest : List Char) :
    basic? (name ++ '"' :: rest) = some (name, rest) := by
  induction name with
  | nil => rfl
  | cons c name ih =>
      obtain ⟨hc, hname⟩ := List.forall_mem_cons.1 hname
      rw [List.cons_append, basic?_cons hc, ih hname]
      rfl

/-- What was read up to its end is read in the same way if more follows.  There is one case for each
equation of the reader; a short escape is none of the long ones that what follows could complete. -/
theorem basic?_append_of_eq (h : basic? s = some (name, left)) (rest : List Char) :
    basic? (s ++ rest) = some (name, left ++ rest) := by
  fun_induction basic? s generalizing name
  case case1 => cases h
  case case2 =>
    cases h
    rfl
  case case3 others ih =>
    obtain ⟨e, he, hfound⟩ := withHex_eq_some_iff.1 h
    obtain ⟨text, hothers, rfl⟩ := withChar_eq_some_iff.1 hfound
    simp [basic?, withHex, he, ih hothers, withChar]
  case case4 others ih =>
    obtain ⟨e, he, hfound⟩ := withHex_eq_some_iff.1 h
    obtain ⟨text, hothers, rfl⟩ := withChar_eq_some_iff.1 hfound
    simp [basic?, withHex, he, ih hothers, withChar]
  case case5 c others _ _ ih =>
    obtain ⟨e, he, hfound⟩ := Option.bind_eq_some_iff.1 h
    obtain ⟨text, hothers, rfl⟩ := withChar_eq_some_iff.1 hfound
    have hu : c ≠ 'u' := by
      rintro rfl
      cases he
    have hU : c ≠ 'U' := by
      rintro rfl
      cases he
    simp [basic?, he, ih hothers, withChar, hu, hU]
  case case6 c others hquote _ _ _ hplain ih =>
    obtain ⟨text, hothers, rfl⟩ := withChar_eq_some_iff.1 h
    obtain ⟨hc, hescape⟩ := Bool.and_eq_true_iff.1 hplain
    rw [List.cons_append, basic?_cons ⟨hc, hquote, by simpa using hescape⟩, ih hothers]
    rfl
  case case7 => cases h

/-- A plain character between apostrophes stands for itself. -/
theorem literal?_cons (hplain : isPlain c = true) (hmark : c ≠ '\'') (s : List Char) :
    literal? (c :: s) = withChar c (literal? s) := by
  simp [literal?, hplain]

/-- A text without apostrophes is read up to the apostrophe behind it. -/
theorem literal?_append (hname : ∀ c ∈ name, isPlain c = true ∧ c ≠ '\'') (rest : List Char) :
    literal? (name ++ '\'' :: rest) = some (name, rest) := by
  induction name with
  | nil => rfl
  | cons c name ih =>
      obtain ⟨⟨hplain, hmark⟩, hname⟩ := List.forall_mem_cons.1 hname
      rw [List.cons_append, literal?_cons hplain hmark, ih hname]
      rfl

/-- What stands between two marks does not start with three of them, unless one follows. -/
theorem append_ne_cons_cons {mark : Char} (hs : ∀ c ∈ s.head?, c ≠ mark)
    (hrest : ∀ c ∈ rest.head?, c ≠ mark) (others : List Char) :
    s ++ mark :: rest ≠ mark :: mark :: others := by
  intro heq
  cases s with
  | nil =>
      obtain rfl := (List.cons.inj heq).2
      exact hrest mark rfl rfl
  | cons c s => exact hs c rfl (List.cons.inj heq).1

/-- The first token is a text between quotation marks, if no further one follows. -/
theorem next?_basic (h : basic? (s ++ ['"']) = some (name, []))
    (hrest : ∀ c ∈ rest.head?, c ≠ '"') :
    next? ('"' :: (s ++ '"' :: rest)) = some (.quoted false name, rest) := by
  have hread : basic? (s ++ '"' :: rest) = some (name, rest) := by
    simpa using basic?_append_of_eq h rest
  have hhead : ∀ c ∈ s.head?, c ≠ '"' := by
    rintro c hc rfl
    obtain ⟨s, rfl⟩ := List.head?_eq_some_iff.1 hc
    simp [basic?] at h
  have hlong := append_ne_cons_cons hhead hrest
  simp [next?, hread, quotedToken]

/-- The first token is a text between apostrophes, if no further one follows. -/
theorem next?_literal (hname : ∀ c ∈ name, isPlain c = true ∧ c ≠ '\'')
    (hrest : ∀ c ∈ rest.head?, c ≠ '\'') :
    next? ('\'' :: (name ++ '\'' :: rest)) = some (.quoted false name, rest) := by
  have hlong := append_ne_cons_cons (fun c hc => (hname c (List.mem_of_mem_head? hc)).2) hrest
  simp [next?, literal?_append hname, quotedToken]

/-- A text of simple characters between quotation marks is one token. -/
theorem scan?_quoted (hfront : Spaces front) (hname : ∀ c ∈ name, IsSimple c)
    (hrest : ∀ c ∈ rest.head?, c ≠ '"') :
    scan? (front ++ '"' :: (name ++ '"' :: rest)) = (scan? rest).map (.quoted false name :: ·) :=
  scan?_behind hfront (by decide) (by decide) (next?_basic (basic?_append hname []) hrest)
    (by simp; omega)

/-! ## Ends of lines -/

/-- What may stand behind an entry: spaces, and maybe a comment. -/
structure Trail where
  spaces : List Char
  remark : Option (List Char)
  isSpaces : Spaces spaces
  isPlain_remark : ∀ text ∈ remark, ∀ c ∈ text, isPlain c = true

namespace Trail

/-- The text of it. -/
def text (t : Trail) : List Char := t.spaces ++ t.remark.elim [] ('#' :: ·)

/-- All of it is skipped in front of the end of the line. -/
theorem skip_text (t : Trail) (hrest : ∀ c ∈ rest.head?, c = '\n') :
    skip (t.text ++ rest) = rest := by
  have hline : rest.dropWhile isPlain = rest ∧ skip rest = rest := by
    cases rest with
    | nil => exact ⟨rfl, rfl⟩
    | cons c rest =>
        obtain rfl := hrest c rfl
        exact ⟨rfl, rfl⟩
  rw [text, List.append_assoc, skip_append t.isSpaces]
  cases hremark : t.remark with
  | none => exact hline.2
  | some remark =>
      exact (skip_sign (t.isPlain_remark remark hremark) rest).trans hline.1

/-- It starts with a space or with the sign of a comment. -/
theorem head?_text (t : Trail) (hc : c ∈ (t.text ++ rest).head?) :
    isSpace c = true ∨ c = '#' ∨ c ∈ rest.head? := by
  rw [text, List.append_assoc, List.head?_append] at hc
  cases hspaces : t.spaces with
  | cons d spaces =>
      obtain rfl : d = c := by simpa [hspaces] using hc
      exact Or.inl (t.isSpaces d (hspaces ▸ List.mem_cons_self))
  | nil =>
      cases hremark : t.remark with
      | none => exact Or.inr (Or.inr (by simpa [hspaces, hremark] using hc))
      | some remark => exact Or.inr (Or.inl (by simpa [hspaces, hremark, eq_comm] using hc))

/-- Nothing but spaces and a comment is no token. -/
theorem scan?_text (t : Trail) (hfront : Spaces front) : scan? (front ++ t.text) = some [] := by
  have hskip : skip t.text = [] := by
    simpa using t.skip_text (show ∀ c ∈ ([] : List Char).head?, c = '\n' from nofun)
  rw [scan?, skip_append hfront, hskip]
  rfl

/-- What stands behind an entry is no token either, but the end of its line is. -/
theorem scan?_text_lineEnd (t : Trail) (hfront : Spaces front) (rest : List Char) :
    scan? (front ++ (t.text ++ '\n' :: rest)) = (scan? rest).map (.lineEnd :: ·) := by
  have hnext : next? (skip (front ++ (t.text ++ '\n' :: rest))) = some (.lineEnd, rest) := by
    rw [skip_append hfront, t.skip_text (by simp)]
    rfl
  rw [scan?_of_next? hnext, if_pos]
  simp
  omega

end Trail

end BenchSweep.Settings.Token
