import BenchSweep.Json
import BenchSweep.Settings.Token

/-!
# JSON strings

The strings of JSON are read in two stages: first the codes that the characters and the escapes of
a text stand for, which are code points and halves of code points, and then the characters that
these codes make up.

* `Json.codes?` : the codes up to the closing quotation mark.
* `Json.join?` : the characters of the codes.
* `Json.string?_quote` : a string in quotation marks is read back, whatever its characters.
-/

namespace BenchSweep.Json

open Settings.Token (hexValue? scalar?)

variable {c : Char} {s rest : List Char} {n : Nat}

/-! ## Escapes -/

/-- The character that the letter behind a backslash stands for: those of settings, and a slash. -/
def escaped? (c : Char) : Option Char :=
  if c = '/' then some '/' else Settings.Token.escaped? c

/-- Put a code in front of those that were read. -/
def withCode (code : Nat) (found : Option (List Nat × List Char)) :
    Option (List Nat × List Char) :=
  found.map fun (codes, rest) => (code :: codes, rest)

/-- The codes up to the closing quotation mark, and what follows it.  Control characters have to be
escaped. -/
def codes? : List Char → Option (List Nat × List Char)
  | [] => none
  | '"' :: rest => some ([], rest)
  | '\\' :: 'u' :: a :: b :: c :: d :: rest =>
      (hexValue? [a, b, c, d]).bind fun code => withCode code (codes? rest)
  | '\\' :: c :: rest => (escaped? c).bind fun e => withCode e.toNat (codes? rest)
  | c :: rest => if c ≠ '\\' ∧ 0x20 ≤ c.toNat then withCode c.toNat (codes? rest) else none

theorem codes?_cons (hmark : c ≠ '"') (hslash : c ≠ '\\') (hcontrol : 0x20 ≤ c.toNat)
    (s : List Char) : codes? (c :: s) = withCode c.toNat (codes? s) := by
  rw [codes?.eq_def]
  split
  · next heq => cases heq
  · next heq => exact absurd (List.cons.inj heq).1 hmark
  · next heq => exact absurd (List.cons.inj heq).1 hslash
  · next heq => exact absurd (List.cons.inj heq).1 hslash
  · next heq =>
      obtain ⟨rfl, rfl⟩ := List.cons.inj heq
      exact if_pos ⟨hslash, hcontrol⟩

theorem hexValue?_control : ∀ n < 0x20,
    hexValue? ['0', '0', hexDigit (n / 16), hexDigit (n % 16)] = some n := by
  decide

/-- An escaped character stands for its code. -/
theorem codes?_escape (c : Char) (s : List Char) :
    codes? (escape c ++ s) = withCode c.toNat (codes? s) := by
  by_cases hmark : c = '"'
  · subst hmark
    rfl
  by_cases hslash : c = '\\'
  · subst hslash
    rfl
  rw [escape, if_neg hmark, if_neg hslash]
  by_cases hletter : c ∈ ['\x08', '\x0c', '\n', '\r', '\t']
  · simp only [List.mem_cons, List.not_mem_nil, or_false] at hletter
    rcases hletter with rfl | rfl | rfl | rfl | rfl <;> rfl
  · simp only [List.mem_cons, List.not_mem_nil, or_false, not_or] at hletter
    obtain ⟨hback, hfeed, hline, hreturn, htab⟩ := hletter
    rw [if_neg hback, if_neg hfeed, if_neg hline, if_neg hreturn, if_neg htab]
    by_cases hcontrol : c.toNat < 0x20
    · rw [if_pos hcontrol]
      show ((hexValue? _).bind fun code => withCode code (codes? s)) = _
      rw [hexValue?_control _ hcontrol, Option.bind_some]
    · rw [if_neg hcontrol]
      exact codes?_cons hmark hslash (Nat.not_lt.1 hcontrol) s

theorem codes?_flatMap_escape (s rest : List Char) :
    codes? (s.flatMap escape ++ '"' :: rest) = some (s.map Char.toNat, rest) := by
  induction s with
  | nil => rfl
  | cons c s ih =>
      rw [List.flatMap_cons, List.append_assoc, codes?_escape, ih]
      rfl

/-! ## Characters -/

/-- The first halves of the code points that do not fit into sixteen bits. -/
def IsHigh (code : Nat) : Prop := 0xD800 ≤ code ∧ code < 0xDC00

/-- Their second halves. -/
def IsLow (code : Nat) : Prop := 0xDC00 ≤ code ∧ code < 0xE000

instance (code : Nat) : Decidable (IsHigh code) := inferInstanceAs (Decidable (_ ∧ _))

instance (code : Nat) : Decidable (IsLow code) := inferInstanceAs (Decidable (_ ∧ _))

/-- The characters that codes make up: two halves stand for one, and no half stands alone. -/
def join? : List Nat → Option (List Char)
  | [] => some []
  | [code] => (scalar? code).map ([·])
  | code :: next :: codes =>
      if IsHigh code ∧ IsLow next then
        (scalar? (0x10000 + 0x400 * (code - 0xD800) + (next - 0xDC00))).bind fun c =>
          (join? codes).map (c :: ·)
      else (scalar? code).bind fun c => (join? (next :: codes)).map (c :: ·)

theorem isValidChar_toNat (c : Char) : c.toNat.isValidChar := c.valid

theorem scalar?_toNat (c : Char) : scalar? c.toNat = some c := by
  rw [scalar?, if_pos (isValidChar_toNat c), Char.ofNat_toNat]

/-- A character is no half of one. -/
theorem not_isHigh_toNat (c : Char) : ¬ IsHigh c.toNat := by
  rintro ⟨hge, hlt⟩
  rcases isValidChar_toNat c with h | ⟨h, -⟩
  · omega
  · omega

theorem join?_map_toNat (s : List Char) : join? (s.map Char.toNat) = some s := by
  induction s with
  | nil => rfl
  | cons c s ih =>
      cases s with
      | nil => rw [List.map_singleton, join?, scalar?_toNat, Option.map_some]
      | cons d s =>
          rw [List.map_cons, List.map_cons, join?, if_neg fun h => not_isHigh_toNat c h.1,
            scalar?_toNat, Option.bind_some, ← List.map_cons, ih, Option.map_some]

/-! ## Strings -/

/-- The string behind an opening quotation mark, and what follows it. -/
def string? (s : List Char) : Option (String × List Char) :=
  (codes? s).bind fun (codes, rest) => (join? codes).map fun text => (String.ofList text, rest)

/-- Every string is read back from its form in quotation marks. -/
theorem string?_quote (s : String) (rest : List Char) :
    ∃ body, quote s ++ rest = '"' :: body ∧ string? body = some (s, rest) := by
  refine ⟨s.toList.flatMap escape ++ '"' :: rest, by simp [quote], ?_⟩
  rw [string?, codes?_flatMap_escape, Option.bind_some]
  dsimp only
  rw [join?_map_toNat, Option.map_some, String.ofList_toList]

/-- Escapes of the two halves of a code point are one character. -/
example : string? "\\ud83d\\ude00\"".toList = some ("😀", []) := by decide

end BenchSweep.Json
