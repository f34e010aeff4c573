import BenchSweep.Program
import BenchSweep.Text.Decimal

/-!
# A shell for rehearsals

Programs of a rehearsal are scripts, and the shell is what runs them: it is called with the path of
the script and the arguments of the script.  A path that starts with a sign is no path to it, but a
word of options.

* `Shell.launch` : what the shell makes of its arguments.
* `Shell.steps` : a reading of scripts that knows a handful of commands.  It takes the place of the
  shell where no other is at hand; a machine may have any reading.
-/

namespace BenchSweep.Shell

/-- The place of the shell. -/
def place : String := "/bin/sh"

/-! ## Options -/

/-- The letters of the switches, if they have one, and their names. -/
def switches : List (Option Char × String) :=
  [(some 'e', "errexit"), (some 'f', "noglob"), (some 'I', "ignoreeof"),
    (some 'i', "interactive"), (some 'm', "monitor"), (some 'n', "noexec"),
    (some 's', "stdin"), (some 'x', "xtrace"), (some 'v', "verbose"), (some 'V', "vi"),
    (some 'E', "emacs"), (some 'C', "noclobber"), (some 'a', "allexport"),
    (some 'b', "notify"), (some 'u', "nounset"), (some 'p', "privileged"), (none, "nolog"),
    (none, "debug")]

/-- Options as far as they were read: the switches that were turned, the last one first,
and the lists of switches that were asked for. -/
structure Options where
  turned : List (String × Bool)
  listed : String
  deriving DecidableEq, Repr

/-- Nothing was read. -/
def Options.start : Options := ⟨[], ""⟩

/-- Was a switch turned on? -/
def Options.isOn (o : Options) (name : String) : Bool := o.turned.lookup name == some true

/-- Was a switch turned off? -/
def Options.isOff (o : Options) (name : String) : Bool := o.turned.lookup name == some false

/-- Turn a switch on or off. -/
def Options.turn (o : Options) (on : Bool) (name : String) : Options :=
  { o with turned := (name, on) :: o.turned }

/-- Take a letter for an option, if it is one; each of the two editors turns the other off. -/
def Options.letter? (o : Options) (on : Bool) (c : Char) : Option Options :=
  if c = 'c' || c = 'l' then some o
  else
    (switches.find? fun s => s.1 == some c).map fun s =>
      let o := o.turn on s.2
      if on && c = 'V' then o.turn false "emacs"
      else if on && c = 'E' then o.turn false "vi"
      else o

/-- List the switches, as settings or as the commands that make them; one that was not
turned counts as on. -/
def Options.list (o : Options) (on : Bool) : Options :=
  let row := fun s : Option Char × String =>
    if on then s.2.pushn ' ' (16 - s.2.length) ++ (if o.isOff s.2 then "off" else "on") ++ "\n"
    else "set " ++ (if o.isOff s.2 then "+o " else "-o ") ++ s.2 ++ "\n"
  let heading := if on then "Current option settings\n" else ""
  { o with listed := o.listed ++ heading ++ String.join (switches.map row) }

/-- Give up with a complaint, behind which the lists appear that were asked for. -/
def Options.giveUp (o : Options) (complaint : String) : Launch :=
  ⟨[.say .err (place ++ ": 0: " ++ complaint ++ "\n"), .say .out o.listed, .exit 2], []⟩

/-- Read the letters that are left of a word, and then words up to the first that is none
of options; `on` tells which sign the word has. -/
def readOptions (o : Options) (on : Bool) :
    List Char → List String → Except Launch (Options × List String)
  | [], [] => .ok (o, [])
  | [], word :: rest =>
    match word.toList with
    | ['-'] => .ok (o, rest)
    | ['-', '-'] => .ok (o, rest)
    | '-' :: letters => readOptions o true letters rest
    | '+' :: letters => readOptions o false letters rest
    | _ => .ok (o, word :: rest)
  | c :: letters, words =>
    if c = 'o' then
      match words with
      | [] => readOptions (o.list on) on letters []
      | name :: rest =>
        if switches.any (·.2 == name) then readOptions (o.turn on name) on letters rest
        else .error (o.giveUp ("Illegal option -o " ++ name))
    else
      match o.letter? on c with
      | some o => readOptions o on letters words
      | none => .error (o.giveUp ("Illegal option -" ++ String.singleton c))
  termination_by letters words => (words.length, letters.length)

/-- What the shell makes of its arguments, if the script at `path` does what `script`
says of the options. -/
def launch (path : String) (script : Options → Program) (args : List String) : Launch :=
  match readOptions .start true [] args with
  | .error refused => refused
  | .ok (o, found :: rest) =>
    if found = path then ⟨script o, rest⟩
    else o.giveUp ("cannot open " ++ found ++ ": No such file")
  | .ok (_, []) => ⟨[], []⟩

/-- A path that starts with no sign runs its script on the other arguments. -/
theorem launch_cons {path : String} (h : path.toList.head? ≠ some '-')
    (h' : path.toList.head? ≠ some '+') (script : Options → Program) (args : List String) :
    launch path script (path :: args) = ⟨script .start, args⟩ := by
  have read : readOptions .start true [] (path :: args) = .ok (.start, path :: args) := by
    rw [readOptions]
    split <;> simp_all
  simp [launch, read]

/-! ## Scripts -/

/-- The words of a line of a script, up to a comment. -/
def lineWords (line : List Char) : List String :=
  let found := (Text.pieces (fun c => c == ' ' || c == '\t') line).filter (!·.isEmpty)
  (found.map String.ofList).takeWhile (!·.startsWith "#")

/-- The largest exit code that a script may name. -/
def largestCode : Nat := 2147483647

/-- What the commands in the lines of the script at `path` do, from line `n` on, after a
command of the given status; `strict` tells whether a failure ends the script.  Apart from
a few commands none is known, and no line is more than its words. -/
def commands (strict : Bool) (path : String) (n status : Nat) :
    List (List String) → Program
  | [] => [.exit status]
  | [] :: rest => commands strict path (n + 1) status rest
  | (name :: args) :: rest =>
    let complaint := fun text =>
      Program.Step.say .err
        (path ++ ": " ++ Text.decimalText n ++ ": " ++ name ++ ": " ++ text ++ "\n")
    let goOn := fun status =>
      if strict && status != 0 then [.exit status] else commands strict path (n + 1) status rest
    match name, args with
    | "exit", [] => [.exit status]
    | "exit", code :: _ =>
      match (Text.natural? code.toList).filter (· ≤ largestCode) with
      | some code => [.exit code]
      | none => [complaint ("Illegal number: " ++ code), .exit 2]
    | "echo", "-n" :: words => .say .out (" ".intercalate words) :: goOn 0
    | "echo", words => .say .out (" ".intercalate words ++ "\n") :: goOn 0
    | "true", _ => goOn 0
    | ":", _ => goOn 0
    | "false", _ => goOn 1
    | _, _ => complaint "not found" :: goOn 127

/-- What a script does that is given as a text, as far as its commands are known. -/
def steps (path text : String) (o : Options) : Program :=
  if o.isOn "noexec" then []
  else
    commands (o.isOn "errexit") path 1 0 ((Text.pieces (· == '\n') text.toList).map lineWords)

end BenchSweep.Shell
