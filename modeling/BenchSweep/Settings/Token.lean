import BenchSweep.Text.Pieces

/-!
# Tokens of settings

The tokens of the part of TOML that settings can be written in: bare words, quoted
texts of the four kinds, brackets, commas, equals signs and line ends.  Spaces,
tabs and comments part tokens and are no tokens.  A character that belongs to none
of these makes the text unusable.

* `Token.scan?` : the tokens of a text.
-/

namespace BenchSweep.Settings

/-- A token; `multiline` tells whether a quoted text may hold line ends, which keeps
it from being a key. -/
inductive Token
  | word (text : List Char)
  | quoted (multiline : Bool) (text : List Char)
  | openBracket
  | closeBracket
  | comma
  | equals
  | lineEnd
  deriving DecidableEq, Repr

namespace Token

/-! ## Characters -/

/-- Spaces and tabs. -/
def isSpace (c : Char) : Bool := c == ' ' || c == '\t'

/-- The characters of comments and quoted texts: tabs, and all but the control
characters. -/
def isPlain (c : Char) : Bool := c == '\t' || (0x20 ≤ c.toNat && c.toNat ≠ 0x7F)

/-- The characters of bare words: those of bare keys and of integers. -/
def isWordChar (c : Char) : Bool := c.isAlphanum || c == '_' || c == '-' || c == '+'

/-- The value of a hexadecimal digit. -/
def hexDigit? (c : Char) : Option Nat :=
  if c.isDigit then some (c.toNat - '0'.toNat)
  else if 'a' ≤ c ∧ c ≤ 'f' then some (c.toNat - 'a'.toNat + 10)
  else if 'A' ≤ c ∧ c ≤ 'F' then some (c.toNat - 'A'.toNat + 10)
  else none

/-- The value of a text of hexadecimal digits. -/
def hexValue? (s : List Char) : Option Nat :=
  s.foldlM (fun n c => (hexDigit? c).map (16 * n + ·)) 0

/-- The character with a code point, which surrogates are not. -/
def scalar? (n : Nat) : Option Char :=
  if n.isValidChar then some (Char.ofNat n) else none

/-- The character that the letter after a backslash stands for. -/
def escaped? : Char → Option Char
  | 'b' => some '\x08'
  | 't' => some '\t'
  | 'n' => some '\n'
  | 'f' => some '\x0c'
  | 'r' => some '\r'
  | '"' => some '"'
  | '\\' => some '\\'
  | _ => none

/-! ## Quoted texts -/

/-- Put a character in front of a quoted text that was scanned. -/
def withChar (c : Char) (found : Option (List Char × List Char)) :
    Option (List Char × List Char) :=
  found.map fun (text, rest) => (c :: text, rest)

/-- Put the character that hexadecimal digits stand for in front of a quoted text
that was scanned. -/
def withHex (digits : List Char) (found : Option (List Char × List Char)) :
    Option (List Char × List Char) :=
  (hexValue? digits).bind scalar? |>.bind fun c => withChar c found

/-- The text up to the closing quotation mark, and what follows it. -/
def basic? : List Char → Option (List Char × List Char)
  | [] => none
  | '"' :: rest => some ([], rest)
  | '\\' :: 'u' :: a :: b :: c :: d :: rest => withHex [a, b, c, d] (basic? rest)
  | '\\' :: 'U' :: a :: b :: c :: d :: e :: f :: g :: h :: rest =>
      withHex [a, b, c, d, e, f, g, h] (basic? rest)
  | '\\' :: c :: rest => (escaped? c).bind fun e => withChar e (basic? rest)
  | c :: rest => if isPlain c && c != '\\' then withChar c (basic? rest) else none

/-- The text up to the closing apostrophe, and what follows it. -/
def literal? : List Char → Option (List Char × List Char)
  | [] => none
  | '\'' :: rest => some ([], rest)
  | c :: rest => if isPlain c then withChar c (literal? rest) else none

/-- Does a line end, after spaces, with a backslash that was read? -/
def startsBlankLine (s : List Char) : Bool :=
  match s.dropWhile isSpace with
  | '\n' :: _ => true
  | '\r' :: '\n' :: _ => true
  | _ => false

/-- The text up to three closing quotation marks, which two more may precede.  While
`folding` is set, blanks and line ends are passed over: that is what a backslash at
the end of a line asks for. -/
def longBasic? : (folding : Bool) → List Char → Option (List Char × List Char)
  | _, [] => none
  | true, ' ' :: rest => longBasic? true rest
  | true, '\t' :: rest => longBasic? true rest
  | true, '\n' :: rest => longBasic? true rest
  | true, '\r' :: '\n' :: rest => longBasic? true rest
  | _, '"' :: '"' :: '"' :: '"' :: '"' :: rest => some (['"', '"'], rest)
  | _, '"' :: '"' :: '"' :: '"' :: rest => some (['"'], rest)
  | _, '"' :: '"' :: '"' :: rest => some ([], rest)
  | _, '\n' :: rest => withChar '\n' (longBasic? false rest)
  | _, '\r' :: '\n' :: rest => withChar '\n' (longBasic? false rest)
  | _, '\\' :: 'u' :: a :: b :: c :: d :: rest => withHex [a, b, c, d] (longBasic? false rest)
  | _, '\\' :: 'U' :: a :: b :: c :: d :: e :: f :: g :: h :: rest =>
      withHex [a, b, c, d, e, f, g, h] (longBasic? false rest)
  | _, '\\' :: c :: rest =>
      if startsBlankLine (c :: rest) then longBasic? true (c :: rest)
      else (escaped? c).bind fun e => withChar e (longBasic? false rest)
  | _, c :: rest =>
      if isPlain c && c != '\\' then withChar c (longBasic? false rest) else none

/-- The text up to three closing apostrophes, which two more may precede. -/
def longLiteral? : List Char → Option (List Char × List Char)
  | [] => none
  | '\'' :: '\'' :: '\'' :: '\'' :: '\'' :: rest => some (['\'', '\''], rest)
  | '\'' :: '\'' :: '\'' :: '\'' :: rest => some (['\''], rest)
  | '\'' :: '\'' :: '\'' :: rest => some ([], rest)
  | '\n' :: rest => withChar '\n' (longLiteral? rest)
  | '\r' :: '\n' :: rest => withChar '\n' (longLiteral? rest)
  | c :: rest => if isPlain c then withChar c (longLiteral? rest) else none

/-- A text without the line end it may start with. -/
def dropLineEnd : List Char → List Char
  | '\n' :: rest => rest
  | '\r' :: '\n' :: rest => rest
  | rest => rest

/-! ## Scanning -/

/-- A quoted text of some kind, as a token. -/
def quotedToken (multiline : Bool) (found : Option (List Char × List Char)) :
    Option (Token × List Char) :=
  found.map fun (text, rest) => (.quoted multiline text, rest)

/-- The token that a text starts with, and what follows it. -/
def next? : List Char → Option (Token × List Char)
  | '\n' :: rest => some (.lineEnd, rest)
  | '\r' :: '\n' :: rest => some (.lineEnd, rest)
  | '[' :: rest => some (.openBracket, rest)
  | ']' :: rest => some (.closeBracket, rest)
  | ',' :: rest => some (.comma, rest)
  | '=' :: rest => some (.equals, rest)
  | '"' :: '"' :: '"' :: rest => quotedToken true (longBasic? false (dropLineEnd rest))
  | '"' :: rest => quotedToken false (basic? rest)
  | '\'' :: '\'' :: '\'' :: rest => quotedToken true (longLiteral? (dropLineEnd rest))
  | '\'' :: rest => quotedToken false (literal? rest)
  | s =>
    match s.span isWordChar with
    | ([], _) => none
    | (w, rest) => some (.word w, rest)

/-- What follows the spaces and the comment that a text may start with. -/
def skip (s : List Char) : List Char :=
  match s.dropWhile isSpace with
  | '#' :: rest => rest.dropWhile isPlain
  | rest => rest

/-- The tokens of a text. -/
def scan? (s : List Char) : Option (List Token) :=
  if (skip s).isEmpty then some []
  else
    match next? (skip s) with
    | none => none
    | some (token, rest) =>
      if rest.length < s.length then (scan? rest).map (token :: ·) else none
termination_by s.length

end Token

end BenchSweep.Settings
