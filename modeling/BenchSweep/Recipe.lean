import BenchSweep.Files.Operations
import BenchSweep.Ini.Document
import BenchSweep.Text.Decimal

/-!
# Recipes

A recipe says how the trials of a benchmark are run: how long one may take, and
which arguments follow the thread count.  It is read from the section `DEFAULT`
of the file `config` in the benchmark's directory.

* `Recipe.parse` : the recipe in a text.
* `Recipe.load` : the recipe of a benchmark directory.
-/

namespace BenchSweep

open Text

/-- The time that a trial may take. -/
structure Timeout where
  milliseconds : Nat
  deriving DecidableEq, Repr

namespace Timeout

/-- A time in seconds. -/
def ofSeconds (n : Nat) : Timeout := ⟨1000 * n⟩

/-- The whole seconds of a time. -/
def seconds (t : Timeout) : Nat := t.milliseconds / 1000

@[simp] theorem seconds_ofSeconds (n : Nat) : (ofSeconds n).seconds = n := by
  simp [ofSeconds, seconds]

/-- The last second that the clock can show, the largest signed number of 64 bits. -/
def lastSecond : Nat := 9223372036854775807

/-- The deadline of a time that starts at a reading of the clock, in milliseconds; there is none if
the clock cannot show it. -/
def deadline? (t : Timeout) (now : Nat) : Option Nat :=
  let deadline := now + t.milliseconds
  if deadline / 1000 ≤ lastSecond then some deadline else none

end Timeout

/-- How the trials of a benchmark are run; the time limit is in seconds. -/
structure Recipe where
  timeLimit : Nat
  extraArgs : List String
  deriving DecidableEq, Repr

namespace Recipe

/-- The time that a trial may take. -/
def timeout (r : Recipe) : Timeout := .ofSeconds r.timeLimit

/-- The file that holds the recipe of a benchmark. -/
def fileName : String := "config"

/-- The section that is read. -/
def sectionName : List Char := "DEFAULT".toList

/-- The key of the time limit. -/
def timeLimitKey : List Char := "maxtime".toList

/-- The key of the extra arguments. -/
def extraArgsKey : List Char := "args".toList

/-- The bound of time limits: they fit into 64 bits. -/
def timeLimitBound : Nat := UInt64.size

/-- The time limit that a value stands for: a positive number. -/
def timeLimit? (value : List Char) : Option Nat :=
  (unsigned? timeLimitBound (trim value)).filter (0 < ·)

/-- The recipe in the sections of a text; `path` is named in failures. -/
def ofSections (path : Path) (sections : Ini.Sections) : Except Failure Recipe :=
  let entries := (sections.get? sectionName).getD Table.empty
  match entries.get? timeLimitKey with
  | none => .error (.timeLimitMissing path)
  | some value =>
    match timeLimit? value with
    | none => .error (.timeLimitInvalid path (String.ofList value))
    | some n => .ok ⟨n, (words ((entries.get? extraArgsKey).getD [])).map String.ofList⟩

/-- The recipe in a text; `path` is named in failures. -/
def parse (path : Path) (text : String) : Except Failure Recipe :=
  match Ini.read text.toList with
  | .error (line, fault) => .error (.configMalformed path line fault)
  | .ok sections => ofSections path sections

/-- The recipe of a benchmark directory. -/
def load (t : Tree) (dir : Path) : Except Failure Recipe :=
  let path := dir.join fileName
  if !t.isFile path then .error (.configNotFound path)
  else
    match t.readText path with
    | .error fault => .error (.configUnreadable path fault)
    | .ok text => parse path text

end Recipe

end BenchSweep
