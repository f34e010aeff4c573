import Mathlib.Data.List.Induction
import Mathlib.Data.Nat.Digits.Defs
import BenchSweep.Text.Blank
import BenchSweep.Text.Decimal

/-!
# Decimal numerals

* `Text.IsNumeral` : the numerals of a number, from the list of its digits.
* `Text.unsigned?_eq_some_iff` : what is read below a bound are the numerals of the numbers below
  it, however long they are.
* `Text.isNumeral_decimal` : the digits of a number are one of its numerals.
* `Text.decimal_injective` : no two numbers have the same digits.
* `Text.leadingDigits?_append` : the digits in front of a text are parted from what follows them.
* `Text.IsNumeral.not_blank` : a numeral holds no blank.
-/

namespace BenchSweep.Text

/-- Is the text a decimal numeral of the number: one or more ASCII digits, the first of which may
be zeros, behind a plus sign or without one? -/
def IsNumeral (s : List Char) (n : Nat) : Prop :=
  ∃ digits : List Nat, digits ≠ [] ∧ (∀ d ∈ digits, d < 10) ∧
    (s = digits.map Nat.digitChar ∨ s = '+' :: digits.map Nat.digitChar) ∧
    n = Nat.ofDigits 10 digits.reverse

variable {s : List Char} {digits : List Nat} {n bound : Nat} {c : Char}

/-! ## Digits -/

theorem digitsValue_concat (s : List Char) (c : Char) :
    digitsValue (s ++ [c]) = 10 * digitsValue s + (c.toNat - '0'.toNat) := by
  simp [digitsValue]

/-- The last digit counts once, and what stands before it ten times. -/
theorem digitsValue_map_digitChar (h : ∀ d ∈ digits, d < 10) :
    digitsValue (digits.map Nat.digitChar) = Nat.ofDigits 10 digits.reverse := by
  induction digits using List.reverseRecOn with
  | nil => rfl
  | append_singleton digits d ih =>
      obtain ⟨hdigits, hd⟩ := List.forall_mem_append.1 h
      have hlast : d.digitChar.toNat - '0'.toNat = d := by
        rw [Nat.toNat_digitChar_of_lt_ten (hd d List.mem_cons_self)]
        exact Nat.add_sub_self_left 48 d
      rw [List.map_append, List.map_singleton, digitsValue_concat, ih hdigits, hlast,
        List.reverse_concat, Nat.ofDigits_cons, Nat.add_comm]

/-- An ASCII digit is the digit of its distance from zero. -/
theorem digitChar_of_isDigit (h : c.isDigit) : ∃ d < 10, c = Nat.digitChar d := by
  have hrange : 48 ≤ c.toNat ∧ c.toNat ≤ 57 := by
    simpa [Char.isDigit, UInt32.le_iff_toNat_le] using h
  refine ⟨c.toNat - 48, by omega, Char.toNat_inj.1 ?_⟩
  rw [Nat.toNat_digitChar_of_lt_ten (by omega)]
  omega

theorem all_isDigit_iff :
    s.all Char.isDigit ↔ ∃ digits : List Nat, (∀ d ∈ digits, d < 10) ∧
      s = digits.map Nat.digitChar := by
  constructor
  · induction s with
    | nil => exact fun _ => ⟨[], by simp, rfl⟩
    | cons c s ih =>
        intro h
        obtain ⟨hc, hs⟩ := Bool.and_eq_true_iff.1 h
        obtain ⟨d, hd, rfl⟩ := digitChar_of_isDigit hc
        obtain ⟨digits, hdigits, rfl⟩ := ih hs
        exact ⟨d :: digits, List.forall_mem_cons.2 ⟨hd, hdigits⟩, rfl⟩
  · rintro ⟨digits, hdigits, rfl⟩
    simpa [Nat.isDigit_digitChar] using hdigits

/-! ## Numerals -/

theorem natural?_of_digits (hne : s ≠ []) (hdigits : ∀ c ∈ s, c.isDigit = true) :
    natural? s = some (digitsValue s) := by
  have hall := List.all_eq_true.2 hdigits
  rw [natural?, if_neg (by simp [hne, hall])]

theorem natural?_eq_some_iff :
    natural? s = some n ↔ ∃ digits : List Nat, digits ≠ [] ∧ (∀ d ∈ digits, d < 10) ∧
      s = digits.map Nat.digitChar ∧ n = Nat.ofDigits 10 digits.reverse := by
  rw [natural?]
  constructor
  · intro h
    split at h
    · cases h
    · next hs =>
        simp only [Bool.or_eq_true, Bool.not_eq_true', not_or, Bool.not_eq_false] at hs
        obtain ⟨digits, hdigits, rfl⟩ := all_isDigit_iff.1 hs.2
        refine ⟨digits, ?_, hdigits, rfl, ?_⟩
        · rintro rfl
          exact hs.1 rfl
        · rw [← digitsValue_map_digitChar hdigits, Option.some.inj h]
  · rintro ⟨digits, hne, hdigits, rfl, rfl⟩
    have hall := all_isDigit_iff.2 ⟨digits, hdigits, rfl⟩
    rw [digitsValue_map_digitChar hdigits, if_neg (by simp [hall, hne])]

theorem digitChar_ne_plus (d : Nat) : d.digitChar ≠ '+' := Nat.digitChar_ne '+' (by decide)

/-- The numerals of the numbers below the bound are read, and nothing else is. -/
theorem unsigned?_eq_some_iff : unsigned? bound s = some n ↔ IsNumeral s n ∧ n < bound := by
  rw [unsigned?, Option.filter_eq_some_iff, decide_eq_true_eq, natural?_eq_some_iff]
  refine and_congr_left fun _ => exists_congr fun digits =>
    and_congr_right fun hne => and_congr_right fun _ => and_congr_left fun _ => ?_
  -- digits do not start with a plus sign
  have hplus (rest : List Char) : digits.map Nat.digitChar ≠ '+' :: rest := by
    obtain ⟨d, digits, rfl⟩ := List.exists_cons_of_ne_nil hne
    exact fun heq => digitChar_ne_plus d (List.cons.inj heq).1
  rw [dropPlus.eq_def]
  split
  · next rest => simp [(hplus rest).symm]
  · next hs => exact (or_iff_left fun heq => hs _ heq).symm

theorem isDigit_of_mem_decimal (h : c ∈ decimal n) : c.isDigit = true :=
  Nat.isDigit_of_mem_toDigits (by decide) (by decide) h

theorem decimal_ne_nil (n : Nat) : decimal n ≠ [] := by simp [decimal]

theorem digitsValue_decimal (n : Nat) : digitsValue (decimal n) = n := by
  rw [digitsValue, ← Nat.ofDigitChars_eq_foldl]
  simp [decimal]

theorem decimal_injective {m n : Nat} (h : decimal m = decimal n) : m = n := by
  rw [← digitsValue_decimal m, h, digitsValue_decimal]

theorem head?_digitChar_ne : ∀ d < 10, 0 < d → [Nat.digitChar d].head? ≠ some '0' := by decide

/-- The digits of a number do not start with a zero. -/
theorem head?_decimal_ne {n : Nat} (h : 0 < n) : (decimal n).head? ≠ some '0' := by
  induction n using Nat.strongRecOn with
  | _ n ih =>
      rcases Nat.lt_or_ge n 10 with hlt | hge
      · rw [decimal, Nat.toDigits_of_lt_base hlt]
        exact head?_digitChar_ne n hlt h
      · rw [decimal, Nat.toDigits_of_base_le (by decide) hge, List.head?_append]
        have hhead := ih (n / 10) (by omega) (by omega)
        rw [decimal] at hhead
        cases hdigits : Nat.toDigits 10 (n / 10) with
        | nil => simp at hdigits
        | cons c s => simpa [hdigits] using hhead

/-- The digits of a number are a numeral of it. -/
theorem isNumeral_decimal (n : Nat) : IsNumeral (decimal n) n := by
  have hread : natural? (decimal n) = some n := by
    rw [natural?_of_digits (decimal_ne_nil n) fun c => isDigit_of_mem_decimal, digitsValue_decimal]
  obtain ⟨digits, hdigits, hlt, hwritten, hn⟩ := natural?_eq_some_iff.1 hread
  exact ⟨digits, hdigits, hlt, Or.inl hwritten, hn⟩

/-- A numeral holds digits, and maybe a plus sign. -/
theorem IsNumeral.eq_plus_or_digit (h : IsNumeral s n) (hc : c ∈ s) :
    c = '+' ∨ ∃ d < 10, c = Nat.digitChar d := by
  have hdigit {digits : List Nat} (hdigits : ∀ d ∈ digits, d < 10)
      (hmem : c ∈ digits.map Nat.digitChar) : ∃ d < 10, c = Nat.digitChar d := by
    obtain ⟨d, hd, rfl⟩ := List.mem_map.1 hmem
    exact ⟨d, hdigits d hd, rfl⟩
  obtain ⟨digits, -, hdigits, rfl | rfl, -⟩ := h
  · exact Or.inr (hdigit hdigits hc)
  · rcases List.mem_cons.1 hc with rfl | hc
    · exact Or.inl rfl
    · exact Or.inr (hdigit hdigits hc)

theorem isBlank_digitChar : ∀ d < 10, isBlank (Nat.digitChar d) = false := by decide

/-- A numeral holds no blank. -/
theorem IsNumeral.not_blank (h : IsNumeral s n) (hc : c ∈ s) : isBlank c = false := by
  rcases h.eq_plus_or_digit hc with rfl | ⟨d, hd, rfl⟩
  · rfl
  · exact isBlank_digitChar d hd

/-! ## Digits in front of a text -/

/-- The digits in front of a text, of which there has to be one, and what follows them. -/
def leadingDigits? (s : List Char) : Option (List Char × List Char) :=
  if s.takeWhile Char.isDigit = [] then none
  else some (s.takeWhile Char.isDigit, s.dropWhile Char.isDigit)

/-- Digits are taken up to the first character that is none. -/
theorem leadingDigits?_append (hdigits : ∀ c ∈ s, c.isDigit = true) (hne : s ≠ [])
    {rest : List Char} (hrest : ∀ c ∈ rest.head?, c.isDigit = false) :
    leadingDigits? (s ++ rest) = some (s, rest) := by
  rw [leadingDigits?, List.takeWhile_append_of_pos hdigits, List.dropWhile_append_of_pos hdigits]
  cases rest with
  | nil => simp [hne]
  | cons c rest => simp [hne, hrest c rfl]

end BenchSweep.Text
