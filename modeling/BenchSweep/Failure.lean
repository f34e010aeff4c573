import BenchSweep.Files.Fault
import BenchSweep.Files.Path

/-!
# Failures

Why a sweep could not be run, and the sentences that tell a user.  A trial that
fails is no failure in this sense: it is counted and the sweep goes on.

* `SyntaxFault`, `SettingsFault` : what is wrong with a configuration or with
  settings.
* `Failure` : the causes.
* `Failure.message` : the sentence for each; the sentences stand in `Wording`.
-/

namespace BenchSweep

/-- What can be wrong with a line of a configuration. -/
inductive SyntaxFault
  | unterminatedHeader
  | keyOutsideSection
  | missingDelimiter
  | emptyKey
  | duplicateKey (key : String)
  deriving DecidableEq, Repr

/-- The wording of a fault in a configuration. -/
def SyntaxFault.detail : SyntaxFault → String
  | unterminatedHeader => "unterminated section header"
  | keyOutsideSection => "key outside of any section"
  | missingDelimiter => "expected 'key = value'"
  | emptyKey => "empty key"
  | duplicateKey key => "duplicate key '" ++ key ++ "'"

/-- What can be wrong with settings. -/
inductive SettingsFault
  | unreadable (fault : Fault)
  /-- The text is no settings document, for a reason that its reader words. -/
  | malformed (detail : String)
  | noAllocators
  | noThreads
  deriving DecidableEq, Repr

/-- The wording of a fault in settings. -/
def SettingsFault.detail : SettingsFault → String
  | unreadable fault => fault.message
  | malformed detail => detail
  | noAllocators => "'allocators' must not be empty"
  | noThreads => "'max_threads' must be at least 1"

/-! ## Sentences -/

namespace Wording

/-- There is no configuration. -/
def configNotFound (path : Path) : String :=
  "Error: configuration file " ++ path.text ++ " does not exist!"

/-- The configuration cannot be read. -/
def configUnreadable (path : Path) (source : String) : String :=
  "Failed to read configuration file " ++ path.text ++ ": " ++ source

/-- A line of the configuration is malformed. -/
def configMalformed (path : Path) (line : Nat) (detail : String) : String :=
  "Malformed configuration file " ++ path.text ++ " (line " ++ toString line ++ "): " ++ detail

/-- The configuration sets no time limit. -/
def timeLimitMissing (path : Path) : String :=
  "Configuration file " ++ path.text ++ " does not set 'maxtime' in [DEFAULT]"

/-- The time limit is no positive number. -/
def timeLimitInvalid (path : Path) (value : String) : String :=
  "Configuration file " ++ path.text ++ ": 'maxtime' must be a positive integer, got '" ++
    value ++ "'"

/-- Something that is no directory stands where one is needed. -/
def notADirectory (path : Path) : String :=
  "Error: " ++ path.text ++ " exists but is not a directory!"

/-- A directory cannot be made. -/
def directoryNotMade (path : Path) (source : String) : String :=
  "Failed to create directory " ++ path.text ++ ": " ++ source

/-- A result log cannot be opened. -/
def logNotOpened (path : Path) (source : String) : String :=
  "Failed to open result file " ++ path.text ++ ": " ++ source

/-- A result log cannot be written. -/
def logNotWritten (path : Path) (source : String) : String :=
  "Failed to write result file " ++ path.text ++ ": " ++ source

/-- A benchmark program cannot be started. -/
def programNotStarted (program : Path) (source : String) : String :=
  "Failed to start benchmark " ++ program.text ++ ": " ++ source

/-- A benchmark program cannot be waited for. -/
def programNotAwaited (program : Path) (source : String) : String :=
  "Failed waiting for benchmark " ++ program.text ++ ": " ++ source

/-- The settings cannot be used. -/
def settingsUnusable (path : Path) (detail : String) : String :=
  "Failed to read settings file " ++ path.text ++ ": " ++ detail

/-- A sweep without iterations is asked for. -/
def noIterations : String := "Iteration count must be a positive integer"

end Wording

/-! ## Causes -/

/-- Why a sweep could not be run. -/
inductive Failure
  | configNotFound (path : Path)
  | configUnreadable (path : Path) (fault : Fault)
  | configMalformed (path : Path) (line : Nat) (fault : SyntaxFault)
  | timeLimitMissing (path : Path)
  | timeLimitInvalid (path : Path) (value : String)
  | notADirectory (path : Path)
  | directoryNotMade (path : Path) (fault : Fault)
  | logNotOpened (path : Path) (fault : Fault)
  | logNotWritten (path : Path) (fault : Fault)
  | programNotStarted (program : Path) (fault : Fault)
  | programNotAwaited (program : Path) (fault : Fault)
  | settingsUnusable (path : Path) (fault : SettingsFault)
  | noIterations
  /-- A failure that a runner of one's own reports. -/
  | reported (text : String)
  deriving DecidableEq, Repr

/-- What came of an attempt can be compared. -/
instance decidableEqExcept {ε α : Type} [DecidableEq ε] [DecidableEq α] :
    DecidableEq (Except ε α)
  | .ok a, .ok b => decidable_of_iff (a = b) ⟨congrArg Except.ok, Except.ok.inj⟩
  | .error e, .error f => decidable_of_iff (e = f) ⟨congrArg Except.error, Except.error.inj⟩
  | .ok _, .error _ => isFalse nofun
  | .error _, .ok _ => isFalse nofun

/-- The sentence that tells a user of a failure. -/
def Failure.message : Failure → String
  | configNotFound path => Wording.configNotFound path
  | configUnreadable path fault => Wording.configUnreadable path fault.message
  | configMalformed path line fault => Wording.configMalformed path line fault.detail
  | timeLimitMissing path => Wording.timeLimitMissing path
  | timeLimitInvalid path value => Wording.timeLimitInvalid path value
  | notADirectory path => Wording.notADirectory path
  | directoryNotMade path fault => Wording.directoryNotMade path fault.message
  | logNotOpened path fault => Wording.logNotOpened path fault.message
  | logNotWritten path fault => Wording.logNotWritten path fault.message
  | programNotStarted program fault => Wording.programNotStarted program fault.message
  | programNotAwaited program fault => Wording.programNotAwaited program fault.message
  | settingsUnusable path fault => Wording.settingsUnusable path fault.detail
  | noIterations => Wording.noIterations
  | reported text => text

end BenchSweep
