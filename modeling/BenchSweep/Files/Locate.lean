import BenchSweep.Files.Fault
import BenchSweep.Files.Tree

/-!
# Where a path leads

Walking a path name by name, through symbolic links, up to forty of them.

* `Tree.locate` : the spot a path leads to, or the refusal it meets on the way.
* `Tree.stat?` : the node a path leads to.
-/

namespace BenchSweep

/-- Where a walk ends: at a node, or at a name that is still free in a directory. -/
inductive Spot
  | found (loc : Location)
  | vacant (loc : Location)
  deriving DecidableEq, Repr

/-- The purpose of a walk: to use what is there, or to make a file of that name. -/
inductive Purpose
  | use
  | make
  deriving DecidableEq, Repr

/-- The length of the longest name, in bytes. -/
def longestName : Nat := 255

/-- The length from which on a path is too long, in bytes. -/
def pathLimit : Nat := 4096

/-- The number of links that one walk may follow. -/
def linkLimit : Nat := 40

namespace Tree

/-- Walk down a list of names from a location; `follow` takes over at a link, with
the location of the directory that holds it, its target and the names left. -/
def descend (t : Tree) (purpose : Purpose)
    (follow : Location → Path → List String → Except Errno Spot) :
    Location → List String → Except Errno Spot
  | here, [] => .ok (.found here)
  | here, name :: rest =>
    if !t.isDirectoryAt here then .error .notDirectory
    else if name = "" || name = "." then descend t purpose follow here rest
    else if name = ".." then descend t purpose follow here.tail rest
    else if purpose = .make && rest = [""] then .error .isDirectory
    else if longestName < name.utf8ByteSize then .error .nameTooLong
    else
      match t.node? (name :: here) with
      | none => if rest = [] then .ok (.vacant (name :: here)) else .error .notFound
      | some (.link target) => follow here ⟨target⟩ rest
      | some _ => descend t purpose follow (name :: here) rest

/-- Where a path starts when it is met in a directory. -/
def start (p : Path) (here : Location) : Location := if p.isAbsolute then [] else here

/-- Walk down a list of names, following at most `links` links. -/
def walk (t : Tree) (purpose : Purpose) : (links : Nat) → Location → List String →
    Except Errno Spot
  | 0 => descend t purpose fun _ _ _ => .error .tooManyLinks
  | links + 1 => descend t purpose fun here target rest =>
      walk t purpose links (start target here) (target.names ++ rest)

/-- Walk down a list of names from the place where a path starts. -/
def walkFrom (t : Tree) (purpose : Purpose) (p : Path) (names : List String) :
    Except Errno Spot :=
  if p.text = "" then .error .notFound
  else if pathLimit ≤ p.text.utf8ByteSize then .error .nameTooLong
  else walk t purpose linkLimit (start p t.workingDirectory) names

/-- The spot that a path leads to. -/
def locate (t : Tree) (purpose : Purpose) (p : Path) : Except Errno Spot :=
  walkFrom t purpose p p.names

/-- The node that a path leads to. -/
def stat? (t : Tree) (p : Path) : Option Node :=
  if Path.holdsNul p.text then none
  else
    match t.locate .use p with
    | .ok (.found loc) => t.node? loc
    | _ => none

/-- Does the path lead to anything? -/
def pathExists (t : Tree) (p : Path) : Bool := (t.stat? p).isSome

/-- Does the path lead to a directory? -/
def isDirectory (t : Tree) (p : Path) : Bool := (t.stat? p).any Node.isDirectory

/-- Does the path lead to an ordinary file? -/
def isFile (t : Tree) (p : Path) : Bool := (t.stat? p).any Node.isFile

end Tree

end BenchSweep
