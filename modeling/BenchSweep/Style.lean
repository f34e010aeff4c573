/-!
# Styles of terminal text

* `Style.paint` : a text in a style, if colours are on.
-/

namespace BenchSweep

/-- The styles of what is shown to a user. -/
inductive Style
  | heading
  | failure
  | success
  deriving DecidableEq, Repr

namespace Style

/-- The codes that switch a style on: bold, bold red, green. -/
def codes : Style → String
  | heading => "1"
  | failure => "31;1"
  | success => "32"

/-- A text in a style; without colours it stays as it is. -/
def paint (s : Style) (colors : Bool) (text : String) : String :=
  if colors then "\x1b[" ++ s.codes ++ "m" ++ text ++ "\x1b[0m" else text

@[simp] theorem paint_false (s : Style) (text : String) : s.paint false text = text := rfl

end Style

end BenchSweep
