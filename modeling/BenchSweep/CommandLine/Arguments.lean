import BenchSweep.Text.Decimal

/-!
# Command-line arguments

* `Grammar` : the operands and options of a command.
* `Grammar.scan` : the values that an argument vector gives them, or why there are
  none: help or the version was asked for, or the arguments make no sense.
-/

namespace BenchSweep.CommandLine

/-- The kinds of values. -/
inductive Kind
  /-- A path, which is not empty. -/
  | path
  /-- Any text. -/
  | text
  /-- A number from 1 to the largest of 32 bits. -/
  | count
  deriving DecidableEq, Repr

/-- The number from 1 to the largest of 32 bits that a text is. -/
def count? (s : String) : Option Nat :=
  (Text.unsigned? UInt32.size s.toList).filter (0 < ·)

/-- Is a text a value of the kind? -/
def Kind.admits : Kind → String → Bool
  | path, s => s != ""
  | text, _ => true
  | count, s => (count? s).isSome

/-- How an option is used: alone, with a value, or with a value again and again. -/
inductive Use
  | flag
  | single (kind : Kind)
  | repeated (kind : Kind)
  deriving DecidableEq, Repr

/-- The operands and the options of a command. -/
structure Grammar where
  operands : List Kind
  options : List (String × Use)
  deriving DecidableEq, Repr

/-- The values given, in order; a flag has the empty value. -/
structure Matches where
  operands : List String
  options : List (String × String)
  deriving DecidableEq, Repr

/-- Why a command does not run. -/
inductive Stop
  | help
  | version
  | misuse
  deriving DecidableEq, Repr

namespace Matches

/-- Nothing was given. -/
def none : Matches := ⟨[], []⟩

/-- The values given for an option. -/
def values (m : Matches) (name : String) : List String :=
  (m.options.filter (·.1 == name)).map (·.2)

/-- Was an option given? -/
def has (m : Matches) (name : String) : Bool := m.options.any (·.1 == name)

/-- The value given for an option. -/
def value? (m : Matches) (name : String) : Option String := (m.values name).head?

/-- The number given for an option. -/
def count? (m : Matches) (name : String) : Option Nat :=
  (m.value? name).bind CommandLine.count?

/-- The operand at a position. -/
def operand (m : Matches) (index : Nat) : String := m.operands.getD index ""

end Matches

/-! ## Shapes of arguments -/

/-- What an argument looks like. -/
inductive Shape
  /-- `--`, behind which all arguments are operands. -/
  | terminator
  /-- `--name` or `--name=value`. -/
  | long (name : String) (attached : Option String)
  /-- `-x` and what follows it. -/
  | short (letter : Char)
  /-- Anything else, a single dash included. -/
  | value
  deriving DecidableEq, Repr

/-- What an argument looks like. -/
def Shape.ofArg (arg : String) : Shape :=
  match arg.toList with
  | ['-', '-'] => terminator
  | '-' :: '-' :: rest =>
    match rest.span (· != '=') with
    | (name, []) => long (String.ofList name) none
    | (name, _ :: attached) => long (String.ofList name) (some (String.ofList attached))
  | '-' :: c :: _ => short c
  | _ => value

/-! ## Scanning -/

namespace Grammar

/-- Take an argument as the next operand. -/
def addOperand (g : Grammar) (m : Matches) (arg : String) : Except Stop Matches :=
  match g.operands[m.operands.length]? with
  | some kind =>
    if kind.admits arg then .ok { m with operands := m.operands ++ [arg] } else .error .misuse
  | none => .error .misuse

/-- Take a value for an option. -/
def addOption (m : Matches) (name : String) (use : Use) (value : String) :
    Except Stop Matches :=
  let added := { m with options := m.options ++ [(name, value)] }
  match use with
  | .flag => if m.has name then .error .misuse else .ok added
  | .single kind =>
    if m.has name || !kind.admits value then .error .misuse else .ok added
  | .repeated kind => if kind.admits value then .ok added else .error .misuse

/-- All operands have to be given. -/
def finish (g : Grammar) (m : Matches) : Except Stop Matches :=
  if m.operands.length = g.operands.length then .ok m else .error .misuse

/-- Scan arguments that follow those matched so far, of which the last is an option that
still waits for its value if there is one `pending`. -/
def scanFrom (g : Grammar) (m : Matches) (pending : Option (String × Use)) :
    List String → Except Stop Matches
  | [] => if pending.isSome then .error .misuse else g.finish m
  | arg :: rest =>
    match pending, Shape.ofArg arg with
    | some (name, use), .value =>
      (addOption m name use arg).bind fun m => scanFrom g m none rest
    | some _, _ => .error .misuse
    | none, .terminator => (rest.foldlM g.addOperand m).bind g.finish
    | none, .value => (g.addOperand m arg).bind fun m => scanFrom g m none rest
    | none, .short 'h' => .error .help
    | none, .short 'V' => .error .version
    | none, .short _ => .error .misuse
    | none, .long "help" none => .error .help
    | none, .long "version" none => .error .version
    | none, .long name attached =>
      match g.options.lookup name, attached with
      | none, _ => .error .misuse
      | some .flag, none => (addOption m name .flag "").bind fun m => scanFrom g m none rest
      | some .flag, some _ => .error .misuse
      | some use, some value =>
        (addOption m name use value).bind fun m => scanFrom g m none rest
      | some use, none => scanFrom g m (some (name, use)) rest

/-- The values that an argument vector gives. -/
def scan (g : Grammar) (args : List String) : Except Stop Matches := g.scanFrom .none none args

end Grammar

end BenchSweep.CommandLine
