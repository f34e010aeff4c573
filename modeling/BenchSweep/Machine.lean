import BenchSweep.Host
import BenchSweep.Shell

/-!
# Machines for rehearsals

A host whose programs are in the file tree: step by step, or as texts that name their interpreter.
A program is started by its path.  Its file may be run, is not busy, and starts with a line that
names the interpreter which is called with the path: the shell, or another program of the tree.

* `Machine` : where programs are looked for, and how scripts are read.
* `interpreter?` : the interpreter that the bytes of a file name.
* `Tree.launch?` : what a path and arguments start.
* `Launch.run` : the run of a program that is given by its steps.
* `Machine.host` : the host that a machine is.
-/

namespace BenchSweep

/-- What there is in a machine besides the files: the directories in which a name without a slash is
looked for, what the shell does for the path, the text and the options of a script, and the words
for a text that is no settings document. -/
structure Machine where
  search : List Path
  script : String → String → Shell.Options → Program
  complaint : String → String

/-! ## The line that names the interpreter -/

/-- The number of bytes in which a file has to name its interpreter. -/
def headLength : Nat := 256

/-- Is the byte a space or a tab? -/
def isGap (b : UInt8) : Bool := b == 0x20 || b == 0x09

/-- Does the byte end a word? -/
def endsWord (b : UInt8) : Bool := isGap b || b == 0

/-- Bytes without the gap at their end. -/
def dropLastGap (data : List UInt8) : List UInt8 := (data.reverse.dropWhile isGap).reverse

/-- The first line of a file.  It may end with the file, behind which zeros follow; one
that is longer than the head of a file is cut, but not within the name of an
interpreter. -/
def headLine? (data : List UInt8) : Option (List UInt8) :=
  let head := data.take headLength
  if head.contains 0x0A then some (dropLastGap (head.takeWhile (· != 0x0A)))
  else
    let filled := head ++ List.replicate (headLength - head.length) 0
    if ((filled.drop 2).dropWhile isGap).any endsWord then some (dropLastGap filled.dropLast)
    else none

/-- The interpreter that a file names behind `#!`, and what it is called with in front of
the path, the rest of the line as one argument. -/
def interpreter? (data : List UInt8) : Option (List UInt8 × Option (List UInt8)) :=
  match headLine? data with
  | some (0x23 :: 0x21 :: line) =>
    match line.dropWhile isGap with
    | [] => none
    | named =>
      let argument :=
        match named.dropWhile (!endsWord ·) with
        | [] => none
        | gap :: rest =>
          if gap == 0 then none else some ((rest.dropWhile isGap).takeWhile (· != 0))
      some (named.takeWhile (!endsWord ·), argument)
  | _ => none

/-! ## Starting -/

/-- May a file of this mode be run? -/
def mayRun (mode : Nat) : Bool := mode &&& 0o111 != 0

/-- The number of interpreters that may call for one another. -/
def interpreterLimit : Nat := 5

namespace Tree

/-- What the file at a path holds, if it may be run. -/
def runnable? (t : Tree) (p : Path) : Except Errno Content :=
  match t.locate .use p with
  | .error e => .error e
  | .ok (.vacant _) => .error .notFound
  | .ok (.found loc) =>
    match t.node? loc with
    | some (.file stamp mode content) =>
      if !mayRun mode then .error .permissionDenied
      else if t.busy.contains stamp then .error .programBusy
      else .ok content
    | _ => .error .permissionDenied

/-- The shell, called for a script, if one more interpreter may be called. -/
def launchShell? (left : Nat) (p : Path) (script : Shell.Options → Program)
    (args : List String) : Except Errno Launch :=
  if left = 0 then .error .tooManyLinks else .ok (Shell.launch p.text script args)

/-- What the content of the file at a path starts, if `left` interpreters may be called. -/
def launchContent? (t : Tree) (m : Machine) (left : Nat) (p : Path) (args : List String) :
    Content → Except Errno Launch
  | .program script => launchShell? left p (fun _ => script) (p.text :: args)
  | .bytes data =>
    match interpreter? data with
    | none => .error .badProgramFormat
    | some (name, argument) =>
      let readable := fun bytes => (ofUtf8? bytes).getD "\uFFFD"
      let interpreter : Path := ⟨readable name⟩
      let args := (argument.map readable).toList ++ p.text :: args
      if interpreter.text = Shell.place then
        launchShell? left p (m.script p.text (readable data)) args
      else if interpreter.text = "" then .error .permissionDenied
      else
        match t.runnable? interpreter, left with
        | .error e, _ => .error e
        | .ok _, 0 => .error .tooManyLinks
        | .ok content, left + 1 => t.launchContent? m left interpreter args content

theorem launchContent?_program (t : Tree) (m : Machine) (left : Nat) (p : Path)
    (args : List String) (script : Program) :
    t.launchContent? m left p args (.program script) =
      launchShell? left p (fun _ => script) (p.text :: args) := by
  cases left <;> rfl

/-- What the file at a path starts. -/
def launchAt? (t : Tree) (m : Machine) (p : Path) (args : List String) : Except Errno Launch :=
  match t.runnable? p with
  | .error e => .error e
  | .ok content => t.launchContent? m interpreterLimit p args content

/-- What a name starts that is looked for in directories, one after the other.  A file that may not
be run is passed over, and `refused` remembers it. -/
def search? (t : Tree) (m : Machine) (name : String) (args : List String) :
    (refused : Bool) → List Path → Except Errno Launch
  | refused, [] => .error (if refused then .permissionDenied else .notFound)
  | refused, dir :: rest =>
    match t.launchAt? m (dir.join name) args with
    | .error .permissionDenied => search? t m name args true rest
    | .error .notFound => search? t m name args refused rest
    | .error .notDirectory => search? t m name args refused rest
    | found => found

/-- What a path and arguments start. -/
def launch? (t : Tree) (m : Machine) (p : Path) (args : List String) : Except Fault Launch :=
  if Path.holdsNul p.text || args.any Path.holdsNul then .error .nulInArgument
  else if p.text.toList.contains '/' then (t.launchAt? m p args).mapError .system
  else if p.text = "" then .error (.system .notFound)
  else if longestName < p.text.utf8ByteSize then .error (.system .nameTooLong)
  else (t.search? m p.text args false m.search).mapError .system

/-- A path with a slash in it starts the program that it leads to. -/
theorem launch?_program {t : Tree} {m : Machine} {p : Path} {args : List String} {script : Program}
    (hrun : t.runnable? p = .ok (.program script)) (hslash : p.text.toList.contains '/' = true)
    (hnul : (Path.holdsNul p.text || args.any Path.holdsNul) = false)
    (hminus : p.text.toList.head? ≠ some '-') (hplus : p.text.toList.head? ≠ some '+') :
    t.launch? m p args = .ok ⟨script, args⟩ := by
  rw [launch?, if_neg (by simp [hnul]), if_pos hslash, launchAt?, hrun]
  dsimp only
  rw [launchContent?_program, launchShell?, if_neg (by decide), Shell.launch_cons hminus hplus]
  rfl

end Tree

/-! ## Running -/

namespace Program

/-- What a program does on arguments, the first of it after a delay; and then the time up to its
end, and how it ends. -/
def trace (args : List String) : (delay : Nat) → Program → List Act × Nat × Ending
  | delay, [] => ([], delay, .exited 0)
  | delay, .print stream data :: rest =>
    let (acts, last) := trace args 0 rest
    (⟨delay, .print stream data⟩ :: acts, last)
  | delay, .printArguments :: rest =>
    let (acts, last) := trace args 0 rest
    (⟨delay, .print .out (utf8 (argumentLine args))⟩ :: acts, last)
  | delay, .appendArguments file :: rest =>
    let (acts, last) := trace args 0 rest
    (⟨delay, .change (·.append file (utf8 (argumentLine args)))⟩ :: acts, last)
  | delay, .pause milliseconds :: rest => trace args (delay + milliseconds) rest
  | delay, .exit code :: _ => ([], delay, .exited (UInt8.ofNat code))
  | delay, .raise signal :: rest =>
    match Signal.ofNumber? signal with
    | some signal => ([], delay, .killed signal false)
    | none => trace args delay rest

/-- The time that it takes to start a program, in milliseconds. -/
def startTime : Nat := 1

end Program

/-- The run of a program that is called with arguments. -/
def Launch.run (l : Launch) : Run :=
  let (acts, rest, ending) := l.program.trace l.args Program.startTime
  { startedAt := 0, acts, rest, ending }

namespace Machine

/-- The host that a machine is. -/
def host (m : Machine) : Host where
  start t p args := (t.launch? m p args).map Launch.run
  complaint := m.complaint

/-- A machine in which no program is installed, with the shell for rehearsals. -/
def plain : Machine := ⟨[], Shell.steps, fun _ => "not a settings document"⟩

/-- A path with a slash in it starts the program that it leads to. -/
theorem start_program {m : Machine} {t : Tree} {p : Path} {args : List String} {script : Program}
    (hrun : t.runnable? p = .ok (.program script)) (hslash : p.text.toList.contains '/' = true)
    (hnul : (Path.holdsNul p.text || args.any Path.holdsNul) = false)
    (hminus : p.text.toList.head? ≠ some '-') (hplus : p.text.toList.head? ≠ some '+') :
    m.host.start t p args = .ok (Launch.run ⟨script, args⟩) := by
  show (t.launch? m p args).map Launch.run = _
  rw [Tree.launch?_program hrun hslash hnul hminus hplus]
  rfl

end Machine

end BenchSweep
