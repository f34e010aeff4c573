/-!
# Faults of the file system

* `Errno` : the refusals of the operating system that a sweep can meet, each with
  its number and its usual text.
* `Fault` : why a file operation failed.
-/

namespace BenchSweep

/-- The refusals of the operating system. -/
inductive Errno
  | notFound
  | badProgramFormat
  | permissionDenied
  | alreadyExists
  | notDirectory
  | isDirectory
  | programBusy
  | noSpace
  | nameTooLong
  | tooManyLinks
  deriving DecidableEq, Repr

namespace Errno

/-- The number of a refusal. -/
def number : Errno → Nat
  | notFound => 2
  | badProgramFormat => 8
  | permissionDenied => 13
  | alreadyExists => 17
  | notDirectory => 20
  | isDirectory => 21
  | programBusy => 26
  | noSpace => 28
  | nameTooLong => 36
  | tooManyLinks => 40

/-- The text of a refusal. -/
def text : Errno → String
  | notFound => "No such file or directory"
  | badProgramFormat => "Exec format error"
  | permissionDenied => "Permission denied"
  | alreadyExists => "File exists"
  | notDirectory => "Not a directory"
  | isDirectory => "Is a directory"
  | programBusy => "Text file busy"
  | noSpace => "No space left on device"
  | nameTooLong => "File name too long"
  | tooManyLinks => "Too many levels of symbolic links"

end Errno

/-- Why a file operation failed. -/
inductive Fault
  /-- The operating system refused. -/
  | system (e : Errno)
  /-- The content of a file is not UTF-8. -/
  | notText
  /-- A file name holds a NUL character. -/
  | nulInName
  /-- The name or an argument of a program holds a NUL character. -/
  | nulInArgument
  /-- A file is more than the memory takes. -/
  | outOfMemory
  deriving DecidableEq, Repr

/-- The wording of a fault. -/
def Fault.message : Fault → String
  | .system e => e.text ++ " (os error " ++ toString e.number ++ ")"
  | .notText => "stream did not contain valid UTF-8"
  | .nulInName => "file name contained an unexpected NUL byte"
  | .nulInArgument => "nul byte found in provided data"
  | .outOfMemory => "out of memory"

end BenchSweep
