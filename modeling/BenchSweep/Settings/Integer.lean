import BenchSweep.Settings.Token

/-!
# Integers of settings

* `integer?` : the value of a bare word, if it is an integer in decimal,
  hexadecimal, octal or binary digits that is not negative.
-/

namespace BenchSweep.Settings

/-- The value of digits to a base, underscores between them passed over. -/
def digits? (base : Nat) (s : List Char) : Option Nat :=
  let groups := Text.pieces (· == '_') s
  if groups.any List.isEmpty then none
  else
    groups.flatten.foldlM (fun n c =>
      ((Token.hexDigit? c).filter (· < base)).map (base * n + ·)) 0

/-- The value of decimal digits without a needless leading zero. -/
def decimal? : List Char → Option Nat
  | ['0'] => some 0
  | '0' :: _ => none
  | s => digits? 10 s

/-- The value of a bare word as an integer that is not negative; zero may carry a
minus sign. -/
def integer? : List Char → Option Nat
  | '0' :: 'x' :: s => digits? 16 s
  | '0' :: 'o' :: s => digits? 8 s
  | '0' :: 'b' :: s => digits? 2 s
  | '+' :: s => decimal? s
  | '-' :: s => (decimal? s).filter (· == 0)
  | s => decimal? s

end BenchSweep.Settings
