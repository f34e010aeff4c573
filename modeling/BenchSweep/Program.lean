import BenchSweep.Files.Path
import BenchSweep.Text.Bytes
import BenchSweep.WaitStatus

/-!
# Programs by their steps

Programs that are given step by step, as the file tree can hold them.  They stand for the programs
of a machine in examples and rehearsals; what is said of sweeps is said of any programs.

* `Program.Step` : one step of a program.
* `Launch` : a program together with its arguments.
-/

namespace BenchSweep

/-- The two output streams of a program. -/
inductive Stream
  | out
  | err
  deriving DecidableEq, Repr

/-- One step of a program. -/
inductive Program.Step
  /-- Write bytes to a stream. -/
  | print (stream : Stream) (data : List UInt8)
  /-- Write the arguments, one line in all, to the output stream. -/
  | printArguments
  /-- Append the same line to a file. -/
  | appendArguments (file : Path)
  /-- Let time pass. -/
  | pause (milliseconds : Nat)
  /-- Exit with a code, of which eight bits are kept. -/
  | exit (code : Nat)
  /-- Be killed by a signal; nothing happens if there is none of this number. -/
  | raise (signal : Nat)
  deriving DecidableEq, Repr

/-- A program is the list of its steps; after the last one it exits with code 0. -/
abbrev Program := List Program.Step

namespace Program

/-- Write a text to a stream. -/
def Step.say (stream : Stream) (text : String) : Step := .print stream (utf8 text)

/-- What the file of a program shows to a reader of texts: a script. -/
def scriptText : String := "#!/bin/sh\nexit 0\n"

/-- The line that shows the arguments of a call. -/
def argumentLine (args : List String) : String :=
  String.join (args.map fun a => "[" ++ a ++ "]") ++ "\n"

/-- More milliseconds than any time limit has. -/
def forever : Nat := 1000 * UInt64.size

end Program

/-- A program that is called with arguments. -/
structure Launch where
  program : Program
  args : List String
  deriving DecidableEq, Repr

end BenchSweep
