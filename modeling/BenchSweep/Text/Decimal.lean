import BenchSweep.Text.Pieces

/-!
# Decimal numbers

* `decimal n`, `decimalText n` : the digits of `n`, without leading zeros.
* `natural? s` : the value of a text of one or more ASCII digits.
* `unsigned? bound s` : the same with an optional plus sign in front, for values
  below `bound`.
-/

namespace BenchSweep.Text

/-- The decimal digits of a number. -/
def decimal (n : Nat) : List Char := Nat.toDigits 10 n

/-- The decimal digits of a number, as a string. -/
def decimalText (n : Nat) : String := String.ofList (decimal n)

/-- The value of a text of digits. -/
def digitsValue (s : List Char) : Nat :=
  s.foldl (fun n c => 10 * n + (c.toNat - '0'.toNat)) 0

/-- Read one or more ASCII digits; leading zeros do not matter. -/
def natural? (s : List Char) : Option Nat :=
  if s.isEmpty || !s.all Char.isDigit then none else some (digitsValue s)

/-- A text without the plus sign it may start with. -/
def dropPlus : List Char → List Char
  | '+' :: s => s
  | s => s

/-- Read an unsigned number below `bound`, which may carry a plus sign. -/
def unsigned? (bound : Nat) (s : List Char) : Option Nat :=
  (natural? (dropPlus s)).filter (· < bound)

end BenchSweep.Text
