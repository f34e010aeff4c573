import BenchSweep.Failure
import BenchSweep.Text.Blank
import BenchSweep.Text.Lowercase

/-!
# Lines of a sectioned text

What a single line says.  A line that is blank or starts with `#` or `;` says
nothing.  What any other line says depends on the lines before it in one respect
only: an indented line that follows an entry goes on with the entry's value.

* `Line.ofChars` : a line on its own: ignored, or a trimmed body with or without
  indentation.
* `Statement.ofBody` : the header or the entry that a body is.
-/

namespace BenchSweep.Ini

open Text

/-- A line on its own. -/
inductive Line
  | ignored
  | body (indented : Bool) (text : List Char)
  deriving DecidableEq, Repr

/-- Does a trimmed line say nothing? -/
def isIdle : List Char → Bool
  | [] => true
  | c :: _ => c == '#' || c == ';'

/-- Does a line start with a blank? -/
def isIndented (raw : List Char) : Bool := raw.head?.any isBlank

/-- Read a line on its own. -/
def Line.ofChars (raw : List Char) : Line :=
  if isIdle (trim raw) then .ignored else .body (isIndented raw) (trim raw)

/-- A line that does not go on with a value. -/
inductive Statement
  | header (name : List Char)
  | entry (key value : List Char)
  deriving DecidableEq, Repr

/-- Does the character part a key from its value? -/
def isDelimiter (c : Char) : Bool := c == '=' || c == ':'

/-- The name in a section header whose opening bracket was read. -/
def headerName? (rest : List Char) : Option (List Char) :=
  if rest.getLast? = some ']' then some rest.dropLast else none

/-- The key and the value of an entry: the key in lower case, both trimmed. -/
def keyValue? (text : List Char) : Except SyntaxFault (List Char × List Char) :=
  match text.span (!isDelimiter ·) with
  | (_, []) => .error .missingDelimiter
  | (before, _ :: after) =>
    let key := lowercase (trim before)
    if key = [] then .error .emptyKey else .ok (key, trim after)

/-- Read the body of a line that does not go on with a value; an entry has to stand
in a section. -/
def Statement.ofBody (inSection : Bool) : List Char → Except SyntaxFault Statement
  | '[' :: rest =>
    match headerName? rest with
    | some name => .ok (.header name)
    | none => .error .unterminatedHeader
  | text =>
    if !inSection then .error .keyOutsideSection
    else (keyValue? text).map fun (key, value) => .entry key value

end BenchSweep.Ini
