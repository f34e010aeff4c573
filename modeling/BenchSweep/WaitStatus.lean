/-!
# Wait statuses

The 32-bit word with which the operating system says how a process ended, and
the outcome of a trial that is read from it.

The low seven bits are zero for a process that exited; its code is then in bits
8 to 15.  They hold a signal number from 1 to 126 for a process that a signal
killed, bit 7 telling whether it left a core dump.  The number 127 stands for a
process that is stopped or goes on, which is no ending at all.

* `WaitStatus.hasExited`, `WaitStatus.wasKilled` : which of these a status is.
* `Outcome.ofStatus` : the outcome that a wait status stands for.
* `WaitStatus.exited`, `WaitStatus.killed` : the status of an ending.
* `Ending` : how a process ends, and `Ending.status` the status that tells of it.
-/

namespace BenchSweep

/-- How a trial ended. -/
inductive Outcome
  | success
  | timedOut
  | exited (code : Int)
  | killed (signal : Int)
  deriving DecidableEq, Repr

/-- Did the trial end in any way but well? -/
def Outcome.isFailure : Outcome → Bool
  | .success => false
  | _ => true

/-- The word that tells how a process ended. -/
structure WaitStatus where
  word : UInt32
  deriving DecidableEq, Repr

namespace WaitStatus

/-- The word as the signed number that it is handed over as. -/
def signed (s : WaitStatus) : Int32 := s.word.toInt32

/-- The low seven bits: zero, a signal, or 127. -/
def lowBits (s : WaitStatus) : Nat := (s.signed &&& 0x7F).toNatClampNeg

/-- Bits 8 to 15: the exit code. -/
def code (s : WaitStatus) : Nat := (s.signed >>> 8 &&& 0xFF).toNatClampNeg

/-- Did the process exit? -/
def hasExited (s : WaitStatus) : Bool := s.lowBits == 0

/-- Did a signal kill the process?  One more than a signal is at least two as a signed
byte; one more than zero is not, and 128 is negative. -/
def wasKilled (s : WaitStatus) : Bool := 2 ≤ ((s.signed &&& 0x7F) + 1).toInt8

/-- The status of a process that exited; only the last eight bits of the code
are kept. -/
def exited (code : Nat) : WaitStatus := ⟨UInt32.ofNat (code % 256 * 256)⟩

/-- The status of a process that a signal killed. -/
def killed (signal : Nat) (coreDumped : Bool) : WaitStatus :=
  ⟨UInt32.ofNat (signal % 128 + if coreDumped then 128 else 0)⟩

end WaitStatus

/-- A signal that can kill a process, by its number. -/
structure Signal where
  number : Nat
  pos : 1 ≤ number
  le : number ≤ 126
  deriving DecidableEq, Repr

/-- The signal of a number, if there is one. -/
def Signal.ofNumber? (number : Nat) : Option Signal :=
  if h : 1 ≤ number ∧ number ≤ 126 then some ⟨number, h.1, h.2⟩ else none

/-- How a process ends. -/
inductive Ending
  | exited (code : UInt8)
  | killed (signal : Signal) (coreDumped : Bool)
  deriving DecidableEq, Repr

/-- The status that tells of an ending. -/
def Ending.status : Ending → WaitStatus
  | exited code => .exited code.toNat
  | killed signal coreDumped => .killed signal.number coreDumped

/-- The outcome that a wait status stands for; one that is no ending counts as the
exit code -1. -/
def Outcome.ofStatus (s : WaitStatus) : Outcome :=
  if s.word = 0 then .success
  else if s.hasExited then .exited s.code
  else if s.wasKilled then .killed s.lowBits
  else .exited (-1)

end BenchSweep
