import BenchSweep.Proofs.Json.Strings
import BenchSweep.Proofs.Text.Numeral

/-!
# Reading JSON

A reader of JSON, with all that JSON has, and what it makes of a printed object.

* `Json.Data` : what a JSON text stands for.
* `Json.read?` : the data of a text.
* `Json.Value.data` : what the value of a field is as data.
* `Json.read?_print` : a printed object is read back, a field after the other.
-/

namespace BenchSweep.Json

open Text

/-- What a JSON text stands for.  The fields of an object are in the order of the text. -/
inductive Data
  | null
  | boolean (b : Bool)
  | number (q : Rat)
  | string (s : String)
  | array (items : List Data)
  | object (fields : List (String × Data))
  deriving Repr

/-- What is read from a text, and what follows it. -/
abbrev Reader (α : Type) := List Char → Option (α × List Char)

/-- Take what a reader reads for something else. -/
def Reader.map {α β : Type} (f : α → β) (read? : Reader α) : Reader β :=
  fun s => (read? s).map fun (a, rest) => (f a, rest)

/-! ## Blanks -/

/-- The blanks that may stand between the parts of a text. -/
def isSpace (c : Char) : Bool := c == ' ' || c == '\t' || c == '\n' || c == '\r'

/-- The text without the blanks that it starts with. -/
def skip (s : List Char) : List Char := s.dropWhile isSpace

/-! ## Numbers -/

/-- A whole number, which starts with a zero only if it is one. -/
def whole? : Reader Nat := fun s => do
  let (digits, rest) ← leadingDigits? s
  if digits.head? = some '0' ∧ digits ≠ ['0'] then none else some (digitsValue digits, rest)

/-- The digits behind a point, which may be missing. -/
def fraction? : Reader Rat
  | '.' :: s => do
      let (digits, rest) ← leadingDigits? s
      some ((digitsValue digits : Rat) / 10 ^ digits.length, rest)
  | s => some (0, s)

/-- A sign, which may be missing, and what follows it. -/
def sign : List Char → Int × List Char
  | '-' :: s => (-1, s)
  | '+' :: s => (1, s)
  | s => (1, s)

/-- The power of ten behind a letter, which may be missing. -/
def exponent? : Reader Int
  | [] => some (0, [])
  | c :: s =>
      if c = 'e' ∨ c = 'E' then do
        let (digits, rest) ← leadingDigits? (sign s).2
        some ((sign s).1 * digitsValue digits, rest)
      else some (0, c :: s)

/-- A number without a sign. -/
def number? : Reader Rat := fun s => do
  let (whole, s) ← whole? s
  let (fraction, s) ← fraction? s
  let (exponent, s) ← exponent? s
  some ((whole + fraction) * 10 ^ exponent, s)

/-! ## Lists and objects -/

section

variable {α : Type}

/-- One item or more with commas between them, up to the closing bracket. -/
def separated? (item? : Reader α) (close : Char) : (fuel : Nat) → Reader (List α)
  | 0, _ => none
  | fuel + 1, s => do
      let (item, s) ← item? s
      match skip s with
      | [] => none
      | c :: rest =>
          if c = ',' then Reader.map (item :: ·) (separated? item? close fuel) rest
          else if c = close then some ([item], rest)
          else none

/-- The items behind an opening bracket, of which there may be none.  No item is empty, so that
there are no more of them than characters. -/
def list? (item? : Reader α) (close : Char) : Reader (List α) := fun s =>
  match skip s with
  | [] => none
  | c :: rest => if c = close then some ([], rest) else separated? item? close s.length s

end

/-- A field of an object: its name in quotation marks, a colon and its value. -/
def field? (value? : Reader Data) : Reader (String × Data) := fun s =>
  match skip s with
  | '"' :: s => do
      let (name, s) ← string? s
      match skip s with
      | ':' :: s => Reader.map (name, ·) value? s
      | _ => none
  | _ => none

/-- A value in which no more than so many are nested. -/
def value? : (depth : Nat) → Reader Data
  | 0, _ => none
  | depth + 1, s =>
      match skip s with
      | [] => none
      | c :: s =>
          if c.isDigit then Reader.map .number number? (c :: s)
          else match c, s with
            | '-', s => Reader.map (fun q => .number (-q)) number? s
            | '"', s => Reader.map .string string? s
            | '[', s => Reader.map .array (list? (value? depth) ']') s
            | '{', s => Reader.map .object (list? (field? (value? depth)) '}') s
            | 'n', 'u' :: 'l' :: 'l' :: s => some (.null, s)
            | 't', 'r' :: 'u' :: 'e' :: s => some (.boolean true, s)
            | 'f', 'a' :: 'l' :: 's' :: 'e' :: s => some (.boolean false, s)
            | _, _ => none

/-- The data that a text stands for, as a whole. -/
def read? (s : String) : Option Data := do
  let (data, rest) ← value? s.length s.toList
  if skip rest = [] then some data else none

/-! ## What is printed -/

/-- What the value of a field is as data. -/
def Value.data : Value → Data
  | string s => .string s
  | number n => .number n
  | strings items => .array (items.map .string)

section

variable {α β : Type} {item? : Reader α} {a : α} {close : Char} {s rest indent : List Char}
  {depth n fuel : Nat} {text : β → List Char} {data : β → α} {xs : List β}

theorem Reader.map_of_eq {f : α → β} {read? : Reader α} (h : read? s = some (a, rest)) :
    Reader.map f read? s = some (f a, rest) := by
  rw [Reader.map, h]
  rfl

/-- A text behind which a printed value may stand: one that starts with a comma or a line end. -/
def Ends (rest : List Char) : Prop := ∀ c ∈ rest.head?, c = ',' ∨ c = '\n'

theorem ends_comma (s : List Char) : Ends (',' :: s) := by simp [Ends]

theorem ends_newline (s : List Char) : Ends ('\n' :: s) := by simp [Ends]

/-- Does a reader take a text for a value, and no more of what follows? -/
def Reads (item? : Reader α) (s : List Char) (a : α) : Prop :=
  ∀ rest, Ends rest → item? (s ++ rest) = some (a, rest)

/-- Blanks, in front of a part of a text. -/
def IsIndent (indent : List Char) : Prop := ∀ c ∈ indent, isSpace c = true

instance (indent : List Char) : Decidable (IsIndent indent) := List.decidableBAll _ indent

theorem skip_append (hindent : IsIndent indent) (s : List Char) :
    skip (indent ++ s) = skip s := List.dropWhile_append_of_pos hindent

theorem skip_cons {c : Char} (h : isSpace c = false) (s : List Char) :
    skip (c :: s) = c :: s := List.dropWhile_cons_of_neg (by simp [h])

/-! ### Numbers -/

/-- The digits of a number do not start with a zero, but for the only digit of zero. -/
theorem decimal_eq_zero (h : (decimal n).head? = some '0') : decimal n = ['0'] := by
  rcases Nat.eq_zero_or_pos n with rfl | hn
  · rfl
  · exact absurd h (head?_decimal_ne hn)

theorem number?_decimal (n : Nat) (hrest : Ends rest) :
    number? (decimal n ++ rest) = some ((n : Rat), rest) := by
  have hend : ∀ c ∈ rest.head?, c.isDigit = false ∧ c ≠ '.' ∧ c ≠ 'e' ∧ c ≠ 'E' := by
    intro c hc
    rcases hrest c hc with rfl | rfl
    · decide
    · decide
  have hwhole : whole? (decimal n ++ rest) = some (n, rest) := by
    rw [whole?, leadingDigits?_append (fun c => isDigit_of_mem_decimal) (decimal_ne_nil n)
      fun c hc => (hend c hc).1]
    simp only [Option.bind_eq_bind, Option.bind_some]
    rw [if_neg fun h => h.2 (decimal_eq_zero h.1), digitsValue_decimal]
  have hfraction : fraction? rest = some (0, rest) := by
    rw [fraction?.eq_def]
    split
    · exact absurd rfl (hend '.' rfl).2.1
    · rfl
  have hexponent : exponent? rest = some (0, rest) := by
    cases rest with
    | nil => rfl
    | cons c rest =>
        obtain ⟨-, -, hsmall, hlarge⟩ := hend c rfl
        exact if_neg (not_or.2 ⟨hsmall, hlarge⟩)
  simp only [number?, hwhole, hfraction, hexponent, Option.bind_eq_bind, Option.bind_some,
    Rat.add_zero, Rat.zpow_zero, Rat.mul_one]

/-! ### Values -/

theorem isSpace_of_isDigit {c : Char} (h : c.isDigit = true) : isSpace c = false := by
  simp only [isSpace, Bool.or_eq_false_iff, beq_eq_false_iff_ne]
  refine ⟨⟨⟨?_, ?_⟩, ?_⟩, ?_⟩
  all_goals
    rintro rfl
    exact absurd h (by decide)

theorem value?_skip (depth : Nat) (hindent : IsIndent indent) (s : List Char) :
    value? depth (indent ++ s) = value? depth s := by
  cases depth with
  | zero => rfl
  | succ depth => rw [value?, value?, skip_append hindent]

theorem reads_quote (hindent : IsIndent indent) (s : String) :
    Reads (value? (depth + 1)) (indent ++ quote s) (.string s) := by
  intro rest _
  obtain ⟨body, hbody, hread⟩ := string?_quote s rest
  rw [List.append_assoc, value?_skip _ hindent, hbody]
  exact Reader.map_of_eq hread

theorem reads_decimal (n : Nat) : Reads (value? (depth + 1)) (decimal n) (.number n) := by
  intro rest hrest
  have hread : Reader.map Data.number number? (decimal n ++ rest) = some (.number n, rest) :=
    Reader.map_of_eq (number?_decimal n hrest)
  obtain ⟨c, digits, heq⟩ := List.exists_cons_of_ne_nil (decimal_ne_nil n)
  have hc : c.isDigit = true := isDigit_of_mem_decimal (heq ▸ List.mem_cons_self)
  have hspace : isSpace c = false := isSpace_of_isDigit hc
  rw [heq, List.cons_append] at hread ⊢
  rw [value?, skip_cons hspace]
  exact (if_pos hc).trans hread

/-! ### Items -/

theorem joinLines_cons_cons (s t : List Char) (texts : List (List Char)) :
    joinLines (s :: t :: texts) = s ++ ',' :: '\n' :: joinLines (t :: texts) := rfl

/-- The first text stands in front. -/
theorem exists_joinLines_cons (s : List Char) (texts : List (List Char)) :
    ∃ others, joinLines (s :: texts) = s ++ others := by
  cases texts with
  | nil => exact ⟨[], (List.append_nil s).symm⟩
  | cons t texts => exact ⟨_, joinLines_cons_cons s t texts⟩

/-- There are no more texts than characters with the commas and line ends between them. -/
theorem length_le_length_joinLines (texts : List (List Char)) :
    texts.length ≤ (joinLines texts).length + 1 := by
  induction texts with
  | nil => exact Nat.zero_le _
  | cons s texts ih =>
      cases texts with
      | nil => exact Nat.le_add_left 1 _
      | cons t texts =>
          simp only [List.length_cons] at ih
          simp only [joinLines_cons_cons, List.length_append, List.length_cons]
          omega

theorem skip_newline (s : List Char) : skip ('\n' :: s) = skip s := rfl

theorem skip_close (hindent : IsIndent indent) (hclose : close = ']' ∨ close = '}')
    (rest : List Char) : skip ('\n' :: (indent ++ close :: rest)) = close :: rest := by
  rw [skip_newline, skip_append hindent]
  rcases hclose with rfl | rfl
  · rfl
  · rfl

/-- Printed items are read one after the other, up to the bracket on a line of its own. -/
theorem separated?_joinLines (hitem : ∀ x ∈ xs, Reads item? ('\n' :: text x) (data x))
    (hne : xs ≠ []) (hfuel : xs.length ≤ fuel) (hindent : IsIndent indent)
    (hclose : close = ']' ∨ close = '}') (rest : List Char) :
    separated? item? close fuel
        ('\n' :: joinLines (xs.map text) ++ '\n' :: (indent ++ close :: rest)) =
      some (xs.map data, rest) := by
  induction xs generalizing fuel with
  | nil => exact absurd rfl hne
  | cons x xs ih =>
      obtain ⟨fuel, rfl⟩ := Nat.exists_eq_add_of_le' (Nat.le_trans (Nat.le_add_left 1 _) hfuel)
      obtain ⟨hx, hxs⟩ := List.forall_mem_cons.1 hitem
      cases xs with
      | nil =>
          have hread := hx ('\n' :: (indent ++ close :: rest)) (ends_newline _)
          have hskip := skip_close hindent hclose rest
          have hcomma : close ≠ ',' := by
            rcases hclose with rfl | rfl
            · decide
            · decide
          rw [List.map_singleton, joinLines, separated?, hread]
          simp only [Option.bind_eq_bind, Option.bind_some, hskip, if_neg hcomma]
          rfl
      | cons y xs =>
          have hothers := ih hxs (List.cons_ne_nil y xs) (Nat.le_of_succ_le_succ hfuel)
          have hread := hx (',' :: '\n' :: joinLines ((y :: xs).map text) ++
            '\n' :: (indent ++ close :: rest)) (ends_comma _)
          have hskip (s : List Char) : skip (',' :: s) = ',' :: s := skip_cons (by decide) s
          rw [List.map_cons, List.map_cons, joinLines_cons_cons, ← List.map_cons, separated?,
            ← List.cons_append, List.append_assoc, hread]
          simp only [Option.bind_eq_bind, Option.bind_some, List.cons_append, hskip, if_true]
          exact Reader.map_of_eq hothers

/-- Printed items behind an opening bracket are read, if there are any.  None of them is taken for
the closing bracket, because they all start with a quotation mark. -/
theorem list?_joinLines (hitem : ∀ x ∈ xs, Reads item? ('\n' :: text x) (data x))
    (hmark : ∀ x ∈ xs, ∀ rest, (skip (text x ++ rest)).head? = some '"')
    (hindent : IsIndent indent) (hclose : close = ']' ∨ close = '}') (rest : List Char) :
    list? item? close ('\n' :: joinLines (xs.map text) ++ '\n' :: (indent ++ close :: rest)) =
      some (xs.map data, rest) := by
  cases xs with
  | nil =>
      have hskip : skip ('\n' :: '\n' :: (indent ++ close :: rest)) = close :: rest := by
        rw [skip_newline, skip_close hindent hclose]
      simp only [list?, List.map_nil, joinLines, List.cons_append, List.nil_append, hskip, if_true]
  | cons x xs =>
      generalize hs :
        '\n' :: joinLines ((x :: xs).map text) ++ '\n' :: (indent ++ close :: rest) = s
      have hfuel : (x :: xs).length ≤ s.length := by
        have hle := length_le_length_joinLines ((x :: xs).map text)
        rw [List.length_map] at hle
        rw [← hs, List.length_append, List.length_cons (a := '\n')]
        exact Nat.le_add_right_of_le hle
      have hhead : (skip s).head? = some '"' := by
        obtain ⟨others, hothers⟩ := exists_joinLines_cons (text x) (xs.map text)
        rw [← hs, List.map_cons, hothers, List.cons_append, skip_newline, List.append_assoc]
        exact hmark x List.mem_cons_self _
      have hread := separated?_joinLines hitem (List.cons_ne_nil x xs) hfuel hindent hclose rest
      have hquote : '"' ≠ close := by
        rcases hclose with rfl | rfl
        · decide
        · decide
      rw [hs] at hread
      obtain ⟨body, hbody⟩ := List.head?_eq_some_iff.1 hhead
      simp only [list?, hbody, if_neg hquote, hread]

/-! ### Fields -/

/-- A string in quotation marks is seen behind the blanks in front of it. -/
theorem head?_skip_quote (hindent : IsIndent indent) (s : String) (rest : List Char) :
    (skip (indent ++ quote s ++ rest)).head? = some '"' := by
  rw [List.append_assoc, skip_append hindent]
  rfl

/-- A list is read back, with its strings in order. -/
theorem reads_strings (items : List String) :
    Reads (value? (depth + 2)) (Value.strings items).print (.array (items.map .string)) := by
  intro rest _
  cases items with
  | nil => rfl
  | cons s items =>
      have hindent : IsIndent "    ".toList := by decide
      have hnewline : IsIndent ('\n' :: "    ".toList) := by decide
      have hread : list? (value? (depth + 1)) ']'
          ('\n' :: joinLines ((s :: items).map fun s => "    ".toList ++ quote s) ++
            '\n' :: ("  ".toList ++ ']' :: rest)) =
          some ((s :: items).map Data.string, rest) :=
        list?_joinLines (fun s _ => reads_quote hnewline s)
          (fun s _ => head?_skip_quote hindent s) (by decide) (Or.inl rfl) rest
      rw [Value.print, List.append_assoc]
      · exact Reader.map_of_eq hread
      · exact List.cons_ne_nil s items

/-- The value of a field is read back, behind a blank. -/
theorem reads_print (v : Value) : Reads (value? (depth + 2)) (' ' :: v.print) v.data := by
  intro rest hrest
  have hblank : IsIndent [' '] := by decide
  rw [List.cons_append, ← List.singleton_append, value?_skip _ hblank]
  cases v with
  | string s => exact reads_quote (by decide : IsIndent []) s rest hrest
  | number n => exact reads_decimal n rest hrest
  | strings items => exact reads_strings items rest hrest

theorem printField_append (name : String) (value : Value) (rest : List Char) :
    printField (name, value) ++ rest =
      "  ".toList ++ quote name ++ (':' :: ' ' :: value.print ++ rest) := by
  rw [printField, List.append_assoc _ _ rest, List.append_assoc _ _ (value.print ++ rest)]
  rfl

/-- A field is read back, on a line of its own. -/
theorem reads_printField (name : String) (value : Value) :
    Reads (field? (value? (depth + 2))) ('\n' :: printField (name, value)) (name, value.data) := by
  intro rest hrest
  obtain ⟨body, hbody, hname⟩ := string?_quote name (':' :: ' ' :: value.print ++ rest)
  have hskip : skip ('\n' :: printField (name, value) ++ rest) = '"' :: body := by
    rw [List.cons_append, printField_append, List.append_assoc, hbody]
    rfl
  have hcolon : skip (':' :: ' ' :: value.print ++ rest) =
      ':' :: (' ' :: value.print ++ rest) := rfl
  simp only [field?, hskip, hname, hcolon, Option.bind_eq_bind, Option.bind_some]
  exact Reader.map_of_eq (reads_print value rest hrest)

/-- A printed object is read back, with its fields in order. -/
theorem read?_print (o : Object) :
    read? (String.ofList (print o ++ ['\n'])) =
      some (.object (o.map fun (name, value) => (name, value.data))) := by
  obtain ⟨depth, hdepth⟩ : ∃ depth, (String.ofList (print o ++ ['\n'])).length = depth + 3 := by
    refine ⟨(joinLines (o.map printField)).length + 2, ?_⟩
    rw [String.length_ofList, print]
    simp only [List.length_append, List.length_cons, List.length_nil]
  have hread : list? (field? (value? (depth + 2))) '}'
      ('\n' :: joinLines (o.map printField) ++ '\n' :: ([] ++ '}' :: ['\n'])) =
      some (o.map fun field => (field.1, field.2.data), ['\n']) :=
    list?_joinLines (fun (name, value) _ => reads_printField name value)
      (fun (name, value) _ rest => by
        rw [printField_append]
        exact head?_skip_quote (by decide) name _)
      (by decide) (Or.inr rfl) ['\n']
  have hvalue : value? (depth + 3) (print o ++ ['\n']) =
      some (.object (o.map fun (name, value) => (name, value.data)), ['\n']) := by
    rw [print, List.append_assoc]
    exact Reader.map_of_eq hread
  rw [read?, hdepth, String.toList_ofList, hvalue]
  rfl

end

end BenchSweep.Json
