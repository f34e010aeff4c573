import BenchSweep.Proofs.Settings.Scan
import BenchSweep.Proofs.Text.Numeral
import BenchSweep.Settings.Integer

/-!
# Lines of settings

What may be written on a line of a settings file, and its tokens.

* `Settings.integer?_decimal` : the digits of a number are read as that number.
* `Settings.Entry` : one of the two keys with its value.
* `Settings.Entry.scan?_text` : the tokens of an entry.
* `Settings.Line` : a line with an entry or without one.
* `Settings.Line.scan?_append` : the tokens of a line.
-/

namespace BenchSweep.Settings

open Token

/-! ## Numbers -/

/-- Digits are read as they count. -/
theorem foldlM_digits {s : List Char} (h : ∀ c ∈ s, c.isDigit = true) (n : Nat) :
    s.foldlM (fun n c => ((hexDigit? c).filter (· < 10)).map (10 * n + ·)) n =
      some (s.foldl (fun n c => 10 * n + (c.toNat - '0'.toNat)) n) := by
  induction s generalizing n with
  | nil => rfl
  | cons c s ih =>
      obtain ⟨hc, hs⟩ := List.forall_mem_cons.1 h
      have hrange : 48 ≤ c.toNat ∧ c.toNat ≤ 57 := by
        simpa [Char.isDigit, UInt32.le_iff_toNat_le] using hc
      have hvalue : c.toNat - '0'.toNat < 10 := by
        show c.toNat - 48 < 10
        omega
      rw [List.foldlM_cons, List.foldl_cons, hexDigit?, if_pos hc, Option.filter_some,
        if_pos (by simpa using hvalue)]
      exact ih hs _

theorem isWordChar_of_isDigit {c : Char} (h : c.isDigit = true) : isWordChar c = true := by
  simp [isWordChar, Char.isAlphanum, h]

theorem digits?_decimal (n : Nat) : digits? 10 (Text.decimal n) = some n := by
  have hpieces : Text.pieces (· == '_') (Text.decimal n) = [Text.decimal n] := by
    refine Text.pieces_eq_singleton fun c hc => beq_eq_false_iff_ne.2 ?_
    rintro rfl
    exact absurd (Text.isDigit_of_mem_decimal hc) (by decide)
  have hne : (Text.decimal n).isEmpty = false := by simp [Text.decimal_ne_nil]
  have hdigit : ∀ c ∈ Text.decimal n, c.isDigit = true := fun c => Text.isDigit_of_mem_decimal
  have hvalue := foldlM_digits hdigit 0
  rw [← Text.digitsValue, Text.digitsValue_decimal] at hvalue
  rw [digits?, hpieces]
  simpa [hne] using hvalue

/-- The digits of a number are read as that number. -/
theorem integer?_decimal (n : Nat) : integer? (Text.decimal n) = some n := by
  rcases Nat.eq_zero_or_pos n with rfl | hn
  · decide
  · have hread := digits?_decimal n
    have hhead := Text.head?_decimal_ne hn
    have hdigit : ∀ c ∈ Text.decimal n, c.isDigit = true := fun c => Text.isDigit_of_mem_decimal
    cases hs : Text.decimal n with
    | nil => exact absurd hs (Text.decimal_ne_nil n)
    | cons c s =>
        rw [hs] at hread hhead hdigit
        have hc := hdigit c List.mem_cons_self
        have hzero : c ≠ '0' := by simpa using hhead
        have hplus : c ≠ '+' := by
          rintro rfl
          exact absurd hc (by decide)
        have hminus : c ≠ '-' := by
          rintro rfl
          exact absurd hc (by decide)
        simp [integer?, decimal?, hzero, hplus, hminus, hread]

/-! ## Entries -/

/-- An entry of a settings file. -/
inductive Entry
  | allocators (names : List String)
  | maxThreads (n : Nat)

namespace Entry

/-- A name between quotation marks. -/
def quotedName (name : String) : List Char := '"' :: (name.toList ++ ['"'])

/-- The key of an entry. -/
def key : Entry → String
  | allocators _ => "allocators"
  | maxThreads _ => "max_threads"

/-- The value of an entry as it is written. -/
def value : Entry → List Char
  | allocators names => '[' :: ([',', ' '].intercalate (names.map quotedName) ++ [']'])
  | maxThreads n => Text.decimal n

/-- An entry as it is written. -/
def text (e : Entry) : List Char := e.key.toList ++ (" = ".toList ++ e.value)

/-- The tokens of the value of an entry. -/
def tokens : Entry → List Token
  | allocators names =>
      .openBracket :: ((names.map fun name => Token.quoted false name.toList).intersperse .comma ++
        [.closeBracket])
  | maxThreads n => [.word (Text.decimal n)]

/-- Can the names stand between quotation marks as they are? -/
def IsPlain : Entry → Prop
  | allocators names => ∀ name ∈ names, ∀ c ∈ name.toList, IsSimple c
  | maxThreads _ => True

variable {front rest : List Char} {e : Entry} {names : List String}

/-- The names in brackets, up to the closing one.  The induction is on the names, each of which is
followed by a comma or by the bracket. -/
theorem scan?_names (hnames : ∀ name ∈ names, ∀ c ∈ name.toList, IsSimple c)
    (hfront : Spaces front) (rest : List Char) :
    scan? (front ++ ([',', ' '].intercalate (names.map quotedName) ++ ']' :: rest)) =
      (scan? rest).map
        ((names.map fun name => Token.quoted false name.toList).intersperse .comma ++
          .closeBracket :: ·) := by
  induction names generalizing front with
  | nil => exact scan?_behind hfront (by decide) (by decide) rfl (Nat.le_refl _)
  | cons name names ih =>
      obtain ⟨hname, hnames⟩ := List.forall_mem_cons.1 hnames
      cases names with
      | nil =>
          have hquoted := scan?_quoted hfront hname
            (show ∀ c ∈ (']' :: rest).head?, c ≠ '"' by simp)
          have hclose : scan? (']' :: rest) = (scan? rest).map (.closeBracket :: ·) :=
            scan?_behind spaces_nil (by decide) (by decide) rfl (Nat.le_refl _)
          simpa [quotedName, hclose, Function.comp_def] using hquoted
      | cons next names =>
          have hothers := ih hnames (show Spaces [' '] by simp [Spaces, isSpace])
          generalize hlast : [',', ' '].intercalate ((next :: names).map quotedName) ++
            ']' :: rest = others at hothers
          have hquoted := scan?_quoted hfront hname
            (show ∀ c ∈ (',' :: ' ' :: others).head?, c ≠ '"' by simp)
          have hcomma : scan? (',' :: ' ' :: others) = (scan? (' ' :: others)).map (.comma :: ·) :=
            scan?_behind spaces_nil (by decide) (by decide) rfl (Nat.le_refl _)
          have htext : [',', ' '].intercalate ((name :: next :: names).map quotedName) ++
              ']' :: rest = '"' :: (name.toList ++ '"' :: ',' :: ' ' :: others) := by
            rw [List.map_cons, List.map_cons, List.intercalate_cons_cons, ← List.map_cons, ← hlast]
            simp [quotedName]
          rw [htext, hquoted, hcomma]
          rw [List.singleton_append] at hothers
          simp [hothers, Function.comp_def]

theorem spaces_singleton : Spaces [' '] := by simp [Spaces, isSpace]

theorem isWordChar_of_mem_key (e : Entry) : ∀ c ∈ e.key.toList, isWordChar c = true := by
  cases e <;> simp [key, isWordChar]

theorem key_ne_nil (e : Entry) : e.key.toList ≠ [] := by cases e <;> simp [key]

theorem scan?_value (he : e.IsPlain) (hrest : ∀ c ∈ rest.head?, isWordChar c = false) :
    scan? (' ' :: (e.value ++ rest)) = (scan? rest).map (e.tokens ++ ·) := by
  cases e with
  | allocators names =>
      have hnames := scan?_names he spaces_nil rest
      have hopen (others : List Char) :
          scan? (' ' :: '[' :: others) = (scan? others).map (.openBracket :: ·) :=
        scan?_behind spaces_singleton (by decide) (by decide) rfl (Nat.le_refl _)
      rw [List.nil_append] at hnames
      simp [value, tokens, hopen, hnames, Function.comp_def]
  | maxThreads n =>
      exact scan?_word spaces_singleton
        (fun c hc => isWordChar_of_isDigit (Text.isDigit_of_mem_decimal hc))
        (by simp [value, Text.decimal]) hrest

/-- The tokens of an entry, behind which no number may go on. -/
theorem scan?_text (he : e.IsPlain) (hfront : Spaces front)
    (hrest : ∀ c ∈ rest.head?, isWordChar c = false) :
    scan? (front ++ (e.text ++ rest)) =
      (scan? rest).map ([.word e.key.toList, .equals] ++ e.tokens ++ ·) := by
  have hvalue := scan?_value he hrest
  have hequals (others : List Char) :
      scan? (' ' :: '=' :: others) = (scan? others).map (.equals :: ·) :=
    scan?_behind spaces_singleton (by decide) (by decide) rfl (Nat.le_refl _)
  have hkey := scan?_word hfront e.isWordChar_of_mem_key e.key_ne_nil
    (show ∀ c ∈ (' ' :: '=' :: ' ' :: (e.value ++ rest)).head?, isWordChar c = false by
      simp [isWordChar])
  have htext : e.text ++ rest = e.key.toList ++ ' ' :: '=' :: ' ' :: (e.value ++ rest) := by
    simp [text]
  rw [htext, hkey, hequals, hvalue]
  simp [Function.comp_def]

end Entry

/-! ## Lines -/

/-- A line of a settings file: an entry, if there is one, between spaces, and maybe a comment. -/
structure Line where
  indent : List Char
  entry : Option Entry
  trail : Trail
  spaces_indent : Spaces indent
  isPlain_entry : ∀ e ∈ entry, e.IsPlain

namespace Line

/-- A line as it is written. -/
def text (l : Line) : List Char := l.indent ++ (l.entry.elim [] Entry.text ++ l.trail.text)

/-- The tokens of a line. -/
def tokens (l : Line) : List Token :=
  l.entry.elim [] fun e => [.word e.key.toList, .equals] ++ e.tokens

/-- The tokens of what is in front of the end of a line, and of what follows. -/
theorem scan?_append (l : Line) (rest : List Char) (others : Option (List Token))
    (hrest : ∀ c ∈ rest.head?, c = '\n')
    (htrail : ∀ front, Spaces front → scan? (front ++ (l.trail.text ++ rest)) = others) :
    scan? (l.text ++ rest) = others.map (l.tokens ++ ·) := by
  cases hentry : l.entry with
  | none => simp [text, tokens, hentry, htrail _ l.spaces_indent]
  | some e =>
      have hend : ∀ c ∈ (l.trail.text ++ rest).head?, isWordChar c = false := by
        intro c hc
        rcases l.trail.head?_text hc with hspace | rfl | hrestc
        · rcases isSpace_iff.1 hspace with rfl | rfl <;> decide
        · decide
        · rw [hrest c hrestc]
          decide
      have hscan := Entry.scan?_text (l.isPlain_entry e hentry) l.spaces_indent hend
      have hothers := htrail [] spaces_nil
      rw [List.nil_append] at hothers
      rw [hothers] at hscan
      simpa [text, tokens, hentry] using hscan

theorem scan?_text (l : Line) : scan? l.text = some l.tokens := by
  have hscan := l.scan?_append [] (some []) (by simp) fun front hfront => by
    rw [List.append_nil, l.trail.scan?_text hfront]
  simpa using hscan

theorem scan?_text_lineEnd (l : Line) (rest : List Char) :
    scan? (l.text ++ '\n' :: rest) = (scan? rest).map (l.tokens ++ .lineEnd :: ·) := by
  rw [l.scan?_append _ _ (by simp) fun front hfront => l.trail.scan?_text_lineEnd hfront rest]
  simp [Function.comp_def]

end Line

end BenchSweep.Settings
