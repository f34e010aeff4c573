import BenchSweep.Text.Lowercase.Table

/-!
# Lower case

The full lower-case mapping of Unicode, without the rules of single languages:
a character goes to its lower-case form, `İ` to an `i` with a dot above, and a
`Σ` that ends a word to the final form `ς`.

* `lowercase s` : the lower-case form of a text.
* `lowercase_eq_map` : on ASCII texts it maps letter by letter.
-/

namespace BenchSweep.Text

/-- The lower-case form of a character apart from its context. -/
def lowerChar (c : Char) : List Char :=
  if c.toNat < 0x80 then [c.toLower]
  else if c.toNat = 0x130 then ['i', '\u0307']
  else
    match caseRuns.find? (·.holds c.toNat) with
    | some run => [Char.ofNat (c.toNat + run.shift).toNat]
    | none => [c]

/-- Does the character have letter case? -/
def isCased (c : Char) : Bool := inRanges casedRanges c.toNat

/-- Is the character passed over when the ends of words are looked for? -/
def isCaseIgnorable (c : Char) : Bool := inRanges caseIgnorableRanges c.toNat

/-- Past the characters to be ignored, does the text start with a cased one? -/
def startsCased (s : List Char) : Bool :=
  match s.dropWhile isCaseIgnorable with
  | [] => false
  | c :: _ => isCased c

/-- The lower-case form of a text that follows `before`, which is given with its
last character first. -/
def lowercaseAfter (before : List Char) : List Char → List Char
  | [] => []
  | c :: s =>
    let here :=
      if c = 'Σ' then [if startsCased before && !startsCased s then 'ς' else 'σ']
      else lowerChar c
    here ++ lowercaseAfter (c :: before) s

/-- The lower-case form of a text. -/
def lowercase (s : List Char) : List Char := lowercaseAfter [] s

@[simp] theorem lowercase_nil : lowercase [] = [] := rfl

theorem lowercaseAfter_eq_map {before s : List Char} (h : ∀ c ∈ s, c.toNat < 0x80) :
    lowercaseAfter before s = s.map Char.toLower := by
  induction s generalizing before with
  | nil => rfl
  | cons c s ih =>
      have hc := h c List.mem_cons_self
      have hne : c ≠ 'Σ' := by
        intro hs
        rw [hs] at hc
        exact absurd hc (by decide)
      rw [lowercaseAfter, ih fun d hd => h d (List.mem_cons_of_mem c hd)]
      simp [hne, lowerChar, hc]

/-- An ASCII text goes to lower case letter by letter. -/
theorem lowercase_eq_map {s : List Char} (h : ∀ c ∈ s, c.toNat < 0x80) :
    lowercase s = s.map Char.toLower :=
  lowercaseAfter_eq_map h

end BenchSweep.Text
