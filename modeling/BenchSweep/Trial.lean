import BenchSweep.Files.Path
import BenchSweep.Text.Decimal

/-!
# Trials

* `Trial` : one run of a benchmark program on some threads.
* `Trial.commandLine` : its program followed by its arguments.
* `Trial.announcement` : the progress line that shows the command.
-/

namespace BenchSweep

/-- One run of a benchmark program. -/
structure Trial where
  allocator : String
  threads : Nat
  iteration : Nat
  program : Path
  args : List String
  deriving DecidableEq, Repr

namespace Trial

/-- The program of a trial, then its arguments. -/
def commandLine (t : Trial) : List String := t.program.text :: t.args

/-- A list of words in apostrophes, parted by commas. -/
def quotedList (words : List String) : String :=
  ", ".intercalate (words.map fun w => "'" ++ w ++ "'")

/-- The progress line that shows the command of a trial and its time limit in
seconds. -/
def announcement (t : Trial) (timeLimit : Nat) : String :=
  "Running '[" ++ quotedList t.commandLine ++ "]' with timeout " ++ Text.decimalText timeLimit

end Trial

end BenchSweep
