import BenchSweep.Files.Path
import BenchSweep.Program
import BenchSweep.Table
import BenchSweep.Text.Bytes

/-!
# The file tree

A machine's files as one value: a table from locations to nodes.  Everything else
about files is said through the look-up `Tree.node?`.

* `Tree.node?_set` : after `set loc n` the node `n` is at `loc`, and all other
  locations are as before.
* `Tree.bare` : a tree whose working directory is empty.
-/

namespace BenchSweep

/-- A place in the tree: the names that lead to it, the innermost one first.  The
root directory is at `[]`. -/
abbrev Location := List String

/-- The devices among the files. -/
inductive Device
  /-- Swallows what is written to it. -/
  | null
  /-- Takes nothing. -/
  | full
  deriving DecidableEq, Repr

/-- What a file holds. -/
inductive Content
  | bytes (data : List UInt8)
  | program (steps : Program)
  deriving DecidableEq, Repr

/-- The bytes of a file; of a program they show the beginning of a script only. -/
def Content.data : Content → List UInt8
  | .bytes data => data
  | .program _ => utf8 Program.scriptText

/-- What is at a location.  The stamp of a file tells it from other files that
were at its location earlier. -/
inductive Node
  | directory (mode : Nat)
  | file (stamp : Nat) (mode : Nat) (content : Content)
  | link (target : String)
  | device (kind : Device)
  deriving DecidableEq, Repr

/-- Is the node a directory? -/
def Node.isDirectory : Node → Bool
  | .directory _ => true
  | _ => false

/-- Is the node an ordinary file? -/
def Node.isFile : Node → Bool
  | .file .. => true
  | _ => false

/-- The files of a machine, seen from a working directory; `busy` holds the stamps of the
files that somebody has open for writing. -/
structure Tree where
  nodes : Table Location Node
  workingDirectory : Location
  nextStamp : Nat
  busy : List Nat
  deriving DecidableEq, Repr

namespace Tree

/-- The mode of the directories and result logs that a sweep makes: `rwxr-xr-x`. -/
def resultMode : Nat := 0o755

/-- The mode of files that programs make: `rw-r--r--`. -/
def plainMode : Nat := 0o644

/-- What is at a location; the root directory is always there. -/
def node? (t : Tree) (loc : Location) : Option Node :=
  if loc = [] then some (.directory 0o755) else t.nodes.get? loc

/-- Put a node at a location. -/
def set (t : Tree) (loc : Location) (n : Node) : Tree :=
  { t with nodes := t.nodes.put loc n }

/-- Is there a directory at the location? -/
def isDirectoryAt (t : Tree) (loc : Location) : Bool :=
  (t.node? loc).any Node.isDirectory

/-- Does every node but the root stand in a directory? -/
def Rooted (t : Tree) : Prop :=
  ∀ name loc, (t.node? (name :: loc)).isSome → t.isDirectoryAt loc

/-! ## The view -/

@[simp] theorem node?_root (t : Tree) : t.node? [] = some (.directory 0o755) := rfl

/-- Putting a node at a location changes that location only. -/
theorem node?_set (t : Tree) {loc other : Location} (n : Node) (h : loc ≠ []) :
    (t.set loc n).node? other = if loc = other then some n else t.node? other := by
  by_cases ho : other = []
  · subst ho
    simp [node?, h]
  · simp [node?, set, ho, Table.get?_put]

@[simp] theorem workingDirectory_set (t : Tree) (loc : Location) (n : Node) :
    (t.set loc n).workingDirectory = t.workingDirectory := rfl

@[simp] theorem nextStamp_set (t : Tree) (loc : Location) (n : Node) :
    (t.set loc n).nextStamp = t.nextStamp := rfl

@[simp] theorem busy_set (t : Tree) (loc : Location) (n : Node) :
    (t.set loc n).busy = t.busy := rfl

/-! ## A tree to start from -/

/-- A machine with two devices and an empty working directory. -/
def bare : Tree where
  nodes :=
    ⟨[(["dev"], .directory 0o755), (["null", "dev"], .device .null),
      (["full", "dev"], .device .full), (["tmp"], .directory 0o1777),
      (["bench", "tmp"], .directory 0o755)]⟩
  workingDirectory := ["bench", "tmp"]
  nextStamp := 0
  busy := []

end Tree

end BenchSweep
