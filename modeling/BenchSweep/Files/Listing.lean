import BenchSweep.Files.Operations

/-!
# Filling and listing a tree

* `Tree.plant` puts something at a path, making the directories on the way.
* `Tree.uproot` removes what is at a path, with all that is below it.
* `Tree.listing` : everything below the working directory, by path.
-/

namespace BenchSweep

/-- What can be planted in a tree. -/
inductive Plant
  | directory (mode : Option Nat)
  | content (mode : Option Nat) (what : Content)
  | link (target : String)
  deriving DecidableEq, Repr

namespace Tree

/-- Make the directories that a list of names leads through, where they are
missing, and give the location of the last one. -/
def makeWay (t : Tree) (here : Location) : List String → Tree × Location
  | [] => (t, here)
  | name :: rest =>
    if name = "" || name = "." then makeWay t here rest
    else if name = ".." then makeWay t here.tail rest
    else
      match t.node? (name :: here) with
      | none => makeWay (t.set (name :: here) (.directory resultMode)) (name :: here) rest
      | some (.link target) =>
        match t.walk .use linkLimit (start ⟨target⟩ here) (Path.names ⟨target⟩) with
        | .ok (.found loc) => makeWay t loc rest
        | _ => makeWay t (name :: here) rest
      | some _ => makeWay t (name :: here) rest

/-- Put something at a path.  A directory that is there stays and takes the mode;
a file that is there keeps its identity and takes the content. -/
def plant (t : Tree) (p : Path) (what : Plant) : Tree :=
  let names := p.names.filter (· ≠ "")
  let (way, here) := t.makeWay (start p t.workingDirectory) names.dropLast
  match names.getLast?, what with
  | none, _ => way
  | some name, .directory mode =>
    let (made, loc) := way.makeWay here [name]
    match mode, made.node? loc with
    | some m, some (.directory _) => made.set loc (.directory m)
    | _, _ => made
  | some name, .link target => way.set (name :: here) (.link target)
  | some name, .content mode content =>
    let m := mode.getD (match content with
      | .program _ => resultMode
      | .bytes _ => plainMode)
    let place := fun loc =>
      match way.node? loc with
      | some (.file stamp _ _) => way.set loc (.file stamp m content)
      | some (.device _) => way
      | _ =>
        let made := way.set loc (.file way.nextStamp m content)
        { made with nextStamp := way.nextStamp + 1 }
    match way.walk .make linkLimit here [name] with
    | .ok (.found loc) => place loc
    | .ok (.vacant loc) => place loc
    | .error _ => place (name :: here)

/-- Remove what is at a path, a link as such, with all that is below it. -/
def uproot (t : Tree) (p : Path) : Tree :=
  let names := p.names.filter (· ≠ "")
  match t.walkFrom .use p names.dropLast, names.getLast? with
  | .ok (.found here), some name =>
    { t with nodes := t.nodes.keep fun loc => !(name :: here).isSuffixOf loc }
  | _, _ => t

/-- The path of a location below a directory, if it is below it. -/
def relative? (dir loc : Location) : Option String :=
  if dir.isSuffixOf loc && dir.length < loc.length then
    some ("/".intercalate (loc.take (loc.length - dir.length)).reverse)
  else none

/-- Everything below the working directory, ordered by path. -/
def listing (t : Tree) : List (String × Node) :=
  let below := t.nodes.rows.filterMap fun (loc, n) =>
    (relative? t.workingDirectory loc).map fun path => (path, n)
  below.mergeSort fun a b => a.1 ≤ b.1

end Tree

end BenchSweep
