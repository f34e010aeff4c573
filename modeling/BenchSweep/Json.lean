import BenchSweep.Text.Decimal

/-!
# Flat JSON objects

JSON objects whose fields are strings, numbers and lists of strings, printed over
several lines.

* `Json.quote` : a string in quotation marks.
* `Json.print` : an object, a field to a line, a list item to a line.
-/

namespace BenchSweep.Json

open Text

/-- The value of a field. -/
inductive Value
  | string (s : String)
  | number (n : Nat)
  | strings (items : List String)
  deriving DecidableEq, Repr

/-- An object: its fields in order. -/
abbrev Object := List (String × Value)

/-! ## Strings -/

/-- A hexadecimal digit, with small letters. -/
def hexDigit (n : Nat) : Char := Nat.digitChar n

/-- A character within a string: quotation marks, backslashes and control characters
are escaped, all others stand for themselves. -/
def escape (c : Char) : List Char :=
  if c = '"' then ['\\', '"']
  else if c = '\\' then ['\\', '\\']
  else if c = '\x08' then ['\\', 'b']
  else if c = '\x0c' then ['\\', 'f']
  else if c = '\n' then ['\\', 'n']
  else if c = '\r' then ['\\', 'r']
  else if c = '\t' then ['\\', 't']
  else if c.toNat < 0x20 then
    ['\\', 'u', '0', '0', hexDigit (c.toNat / 16), hexDigit (c.toNat % 16)]
  else [c]

/-- A string in quotation marks. -/
def quote (s : String) : List Char := '"' :: s.toList.flatMap escape ++ ['"']

/-! ## Objects -/

/-- Texts parted by a comma and a line end. -/
def joinLines : List (List Char) → List Char
  | [] => []
  | [s] => s
  | s :: rest => s ++ ',' :: '\n' :: joinLines rest

/-- The value of a field; the items of a list stand four blanks in. -/
def Value.print : Value → List Char
  | string s => quote s
  | number n => decimal n
  | strings [] => ['[', ']']
  | strings items =>
      '[' :: '\n' :: joinLines (items.map fun s => "    ".toList ++ quote s) ++
        "\n  ]".toList

/-- A field, two blanks in. -/
def printField (field : String × Value) : List Char :=
  "  ".toList ++ quote field.1 ++ ": ".toList ++ field.2.print

/-- An object over several lines. -/
def print (o : Object) : List Char :=
  '{' :: '\n' :: joinLines (o.map printField) ++ ['\n', '}']

end BenchSweep.Json
