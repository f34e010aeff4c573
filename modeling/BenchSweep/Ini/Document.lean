import BenchSweep.Ini.Line
import BenchSweep.Table

/-!
# Sectioned texts

A text of sections with entries, read line by line into a table of tables.

* `read` : the sections of a text, or the number of the first line at fault and
  what is wrong with it.
* `Reading.step` : what one line does to what has been read so far.
-/

namespace BenchSweep.Ini

open Text

/-- The entries of a section. -/
abbrev Entries := Table (List Char) (List Char)

/-- The sections of a text. -/
abbrev Sections := Table (List Char) Entries

/-- Where the reader stands: before any section, in a section before its first
entry since the header, or behind an entry, whose value may go on. -/
inductive Cursor
  | outside
  | underHeader (name : List Char)
  | behindEntry (name key : List Char)
  deriving DecidableEq, Repr

/-- The section the reader is in. -/
def Cursor.section? : Cursor → Option (List Char)
  | outside => none
  | underHeader name => some name
  | behindEntry name _ => some name

/-- The entry whose value may go on. -/
def Cursor.entry? : Cursor → Option (List Char × List Char)
  | behindEntry name key => some (name, key)
  | _ => none

/-- What has been read so far. -/
structure Reading where
  sections : Sections
  cursor : Cursor
  deriving DecidableEq, Repr

namespace Reading

/-- Nothing has been read. -/
def initial : Reading := ⟨Table.empty, .outside⟩

/-- The entries of a section, none if it was not opened. -/
def entries (r : Reading) (name : List Char) : Entries :=
  (r.sections.get? name).getD Table.empty

/-- Set the value of an entry. -/
def setEntry (r : Reading) (name key value : List Char) : Sections :=
  r.sections.put name ((r.entries name).put key value)

/-- A line goes on with the value of an entry. -/
def continueEntry (r : Reading) (name key text : List Char) : Reading :=
  match (r.entries name).get? key with
  | some value => { r with sections := r.setEntry name key (value ++ '\n' :: text) }
  | none => r

/-- A header opens a section, or opens it again with the entries it has. -/
def openSection (r : Reading) (name : List Char) : Reading :=
  ⟨r.sections.put name (r.entries name), .underHeader name⟩

/-- An entry joins its section; its key has to be new there. -/
def addEntry (r : Reading) (name key value : List Char) : Except SyntaxFault Reading :=
  if ((r.entries name).get? key).isSome then .error (.duplicateKey (String.ofList key))
  else .ok ⟨r.setEntry name key value, .behindEntry name key⟩

/-- A body that does not go on with a value is a header or an entry. -/
def addStatement (r : Reading) (text : List Char) : Except SyntaxFault Reading := do
  match ← Statement.ofBody r.cursor.section?.isSome text, r.cursor.section? with
  | .header name, _ => .ok (r.openSection name)
  | .entry key value, some name => r.addEntry name key value
  | .entry _ _, none => .error .keyOutsideSection

/-- Read one more line. -/
def step (r : Reading) (raw : List Char) : Except SyntaxFault Reading :=
  match Line.ofChars raw, r.cursor.entry? with
  | .ignored, _ => .ok r
  | .body true text, some (name, key) => .ok (r.continueEntry name key text)
  | .body _ text, _ => r.addStatement text

/-- Read lines, the first of which has the given number. -/
def steps (r : Reading) (number : Nat) : List (List Char) → Except (Nat × SyntaxFault) Reading
  | [] => .ok r
  | raw :: rest =>
    match r.step raw with
    | .ok next => next.steps (number + 1) rest
    | .error fault => .error (number, fault)

end Reading

/-- The sections of a text. -/
def read (text : List Char) : Except (Nat × SyntaxFault) Sections :=
  (Reading.initial.steps 1 (lines text)).map Reading.sections

end BenchSweep.Ini
