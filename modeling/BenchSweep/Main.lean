import BenchSweep.CommandLine.Command
import BenchSweep.Files.Listing
import BenchSweep.Machine

/-!
# Rehearsals

The program rehearses the command that its first argument names: it reads the texts
that the command reads, lets every program that is there end well at once, and prints
what the command then prints.  Nothing is written to the disk, and no program is
started.
-/

namespace BenchSweep.Rehearsal

open CommandLine

/-- The bytes of a file, if it can be read. -/
def bytes? (p : Path) : IO (Option (List UInt8)) := do
  try
    let data ← IO.FS.readBinFile p.text
    return some data.toList
  catch _ => return none

/-- Plant the files among `paths` that can be read, as `content` has it. -/
def plantFiles (content : List UInt8 → Content) (tree : Tree) (paths : List Path) : IO Tree :=
  paths.foldlM (fun tree p => do
    match ← bytes? p with
    | some data => return tree.plant p (.content none (content data))
    | none => return tree) tree

/-- The places where a program is looked for. -/
def places (m : Machine) (p : Path) : List Path :=
  if p.text.toList.contains '/' then [p] else m.search.map (·.join p.text)

/-- The tree in which a command is rehearsed. -/
def stage (m : Machine) (c : Command) (args : List String) : IO Tree := do
  let texts ← plantFiles .bytes .bare (c.texts args)
  plantFiles (fun _ => .program []) texts ((c.programs args texts).flatMap (places m))

/-- The machine of a rehearsal: programs are looked for where the user has them looked for. -/
def machine : IO Machine := do
  let search := ((← IO.getEnv "PATH").getD "/bin:/usr/bin").splitOn ":"
  return { Machine.plain with search := search.map Path.mk }

/-- Print an answer and give the exit code. -/
def print (c : Command) : Response → IO UInt32
  | .help => do
    IO.println ("usage: " ++ c.usage)
    return 0
  | .misuse => do
    IO.eprintln ("usage: " ++ c.usage)
    return 1
  | .done exit => do
    (← IO.getStdout).write ⟨exit.output.stdout.toArray⟩
    (← IO.getStderr).write ⟨exit.output.stderr.toArray⟩
    return UInt32.ofNat exit.code

end BenchSweep.Rehearsal

open BenchSweep BenchSweep.CommandLine in
/-- Rehearse a command. -/
def main (args : List String) : IO UInt32 := do
  match args with
  | [] =>
    IO.eprintln "usage: (runbench | runall) ARGUMENT..."
    return 1
  | name :: rest =>
    let machine ← Rehearsal.machine
    match Command.named? machine.host name with
    | none =>
      IO.eprintln ("no command " ++ name)
      return 1
    | some c => Rehearsal.print c (c.answer rest (← Rehearsal.stage machine c rest))
