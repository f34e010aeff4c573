import BenchSweep.Text.Pieces

/-!
# Paths

A path is the text of a file name as a user writes it; it is kept as it was given
and never normalised.

* `Path.join` : the path of something below a directory.
* `Path.names` : the names a path walks through.  A slash at the end counts as a
  last, empty name: it asks for a directory.
-/

namespace BenchSweep

/-- The name of a file, as text. -/
structure Path where
  text : String
  deriving DecidableEq, Repr, Inhabited

namespace Path

/-- Does the path start at the root directory? -/
def isAbsolute (p : Path) : Bool := p.text.toList.head? == some '/'

/-- Does the path end in a slash? -/
def endsInSlash (p : Path) : Bool := p.text.toList.getLast? == some '/'

/-- The path `name` as seen from the directory `dir`: an absolute path stands for
itself, any other one follows after a slash. -/
def join (dir : Path) (name : String) : Path :=
  if Path.isAbsolute ⟨name⟩ then ⟨name⟩
  else if dir.text = "" || dir.endsInSlash then ⟨dir.text ++ name⟩
  else ⟨dir.text ++ "/" ++ name⟩

/-- The names of a path from left to right; a last, empty name stands for a slash
at the end. -/
def names (p : Path) : List String :=
  let found := ((Text.pieces (· == '/') p.text.toList).map String.ofList).filter (· ≠ "")
  if p.endsInSlash && !found.isEmpty then found ++ [""] else found

/-- Does the text hold the character that no file name can hold? -/
def holdsNul (s : String) : Bool := s.toList.contains '\x00'

end Path

end BenchSweep
