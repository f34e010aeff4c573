import BenchSweep.WaitStatus

/-!
# Outcomes in words

* `signalName` : the usual name of a signal, or `signal N`.
* `Outcome.annotation` : the line that a failed trial leaves in its log.
* `Outcome.label` : the outcome as progress lines show it.
-/

namespace BenchSweep

/-- The names of the signals 1 to 31, in order. -/
def signalNames : List String :=
  ["SIGHUP", "SIGINT", "SIGQUIT", "SIGILL", "SIGTRAP", "SIGABRT", "SIGBUS", "SIGFPE",
    "SIGKILL", "SIGUSR1", "SIGSEGV", "SIGUSR2", "SIGPIPE", "SIGALRM", "SIGTERM", "SIGSTKFLT",
    "SIGCHLD", "SIGCONT", "SIGSTOP", "SIGTSTP", "SIGTTIN", "SIGTTOU", "SIGURG", "SIGXCPU",
    "SIGXFSZ", "SIGVTALRM", "SIGPROF", "SIGWINCH", "SIGIO", "SIGPWR", "SIGSYS"]

/-- The usual name of a signal; one without a name is shown by its number. -/
def signalName (signal : Int) : String :=
  match if 1 ≤ signal then signalNames[(signal - 1).toNat]? else none with
  | some name => name
  | none => "signal " ++ toString signal

namespace Outcome

/-- The line that a failed trial leaves in its log; a clean exit leaves none. -/
def annotation : Outcome → Option String
  | success => none
  | timedOut => some "Killed. Timed out."
  | exited code => some ("Died. " ++ toString code)
  | killed signal => some ("Died. " ++ signalName signal)

/-- The outcome in a word or two. -/
def label : Outcome → String
  | success => "ok"
  | timedOut => "timed out"
  | exited code => "exit " ++ toString code
  | killed signal => signalName signal

/-- There is an annotation exactly for the failures. -/
theorem isSome_annotation (o : Outcome) : o.annotation.isSome = o.isFailure := by
  cases o <;> rfl

end Outcome

end BenchSweep
