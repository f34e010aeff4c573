import BenchSweep.CommandLine.Arguments
import BenchSweep.Files.Tree

/-!
# Responses

What a command answers: its exit code, what it prints, and the file tree it leaves.
-/

namespace BenchSweep.CommandLine

/-- What a command prints, byte by byte. -/
structure Output where
  stdout : List UInt8
  stderr : List UInt8
  deriving DecidableEq, Repr

namespace Output

/-- Nothing is printed. -/
def none : Output := ⟨[], []⟩

/-- One output after the other. -/
def append (a b : Output) : Output := ⟨a.stdout ++ b.stdout, a.stderr ++ b.stderr⟩

instance : Append Output := ⟨append⟩

/-- Bytes on one of the streams. -/
def bytes (stream : Stream) (data : List UInt8) : Output :=
  match stream with
  | .out => ⟨data, []⟩
  | .err => ⟨[], data⟩

/-- A text on one of the streams. -/
def text (stream : Stream) (s : String) : Output := bytes stream (utf8 s)

/-- A line on one of the streams. -/
def line (stream : Stream) (s : String) : Output := text stream (s ++ "\n")

/-- Outputs one after the other. -/
def concat (outputs : List Output) : Output := outputs.foldr (· ++ ·) none

end Output

/-- A command that ran. -/
structure Exit where
  code : Nat
  output : Output
  tree : Tree

/-- What a command answers; the wording of help and of complaints about arguments
is left to whoever prints it. -/
inductive Response
  | help
  | misuse
  | done (exit : Exit)

/-- The highest exit code. -/
def highestCode : Nat := 255

/-- The exit code for a number of failures. -/
def exitCode (failures : Nat) : Nat := min failures highestCode

/-- The version of the commands. -/
def version : String := "0.1.0"

/-- The answer to arguments that do not make a command run. -/
def Response.ofStop (command : String) (tree : Tree) : Stop → Response
  | .help => help
  | .misuse => misuse
  | .version => done ⟨0, .line .out (command ++ " " ++ version), tree⟩

end BenchSweep.CommandLine
