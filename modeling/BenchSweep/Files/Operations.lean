import BenchSweep.Files.Locate

/-!
# File operations

What a sweep asks of the file tree: make a directory, read a text, open a file
for writing and write through the handle, append to a file.  It asks as the superuser, to
whom modes forbid nothing here, and no device but `/dev/full` is ever full.

* `Tree.makeDirectory` adds one empty directory or refuses.
* `Tree.openTruncated` empties or makes a file and gives a handle on it.
* `Tree.write` writes at the handle's offset; `overwrite` says what is then in the
  file.  A file that was removed or replaced since takes the writes unseen.
* `Tree.hold` keeps the file of a handle busy.
-/

namespace BenchSweep

/-! ## Contents -/

/-- The content of a file after writing `data` at `offset`; a gap before it is
filled with zeros. -/
def overwrite (content : List UInt8) (offset : Nat) (data : List UInt8) : List UInt8 :=
  if data.isEmpty then content
  else
    content.take offset ++ List.replicate (offset - content.length) 0 ++ data ++
      content.drop (offset + data.length)

/-- Writing at the end of a file appends to it. -/
theorem overwrite_length (content data : List UInt8) :
    overwrite content content.length data = content ++ data := by
  unfold overwrite
  cases data with
  | nil => simp
  | cons b data => simp

/-! ## Handles -/

/-- What a handle is open on. -/
inductive Handle.Target
  | file (loc : Location) (stamp : Nat)
  | device (kind : Device)
  deriving DecidableEq, Repr

/-- A file open for writing, with the offset of the next write. -/
structure Handle where
  target : Handle.Target
  offset : Nat
  deriving DecidableEq, Repr

namespace Tree

/-! ## Directories and texts -/

/-- Make a directory; its parent has to be there, and its name has to be free. -/
def makeDirectory (t : Tree) (p : Path) : Except Fault Tree :=
  if Path.holdsNul p.text then .error .nulInName
  else
    let names := p.names.filter (· ≠ "")
    match t.walkFrom .use p names.dropLast, names.getLast? with
    | .error e, _ => .error (.system e)
    | .ok (.vacant _), _ => .error (.system .notFound)
    | .ok (.found _), none => .error (.system .alreadyExists)
    | .ok (.found here), some name =>
      if !t.isDirectoryAt here then .error (.system .notDirectory)
      else if name = "." || name = ".." then .error (.system .alreadyExists)
      else if longestName < name.utf8ByteSize then .error (.system .nameTooLong)
      else if (t.node? (name :: here)).isSome then .error (.system .alreadyExists)
      else .ok (t.set (name :: here) (.directory resultMode))

/-- The text of a file.  The devices are read as `/dev/null`, which is empty, and `/dev/full`, which
gives zeros until the memory is used up. -/
def readText (t : Tree) (p : Path) : Except Fault String :=
  if Path.holdsNul p.text then .error .nulInName
  else
    match t.locate .use p with
    | .error e => .error (.system e)
    | .ok (.vacant _) => .error (.system .notFound)
    | .ok (.found loc) =>
      match t.node? loc with
      | some (.directory _) => .error (.system .isDirectory)
      | some (.file _ _ content) =>
        match ofUtf8? content.data with
        | some s => .ok s
        | none => .error .notText
      | some (.device .full) => .error .outOfMemory
      | _ => .ok ""

/-! ## Writing -/

/-- A new, empty file at a free location, and a handle on it. -/
def createAt (t : Tree) (loc : Location) (mode : Nat) : Tree × Handle :=
  let made := t.set loc (.file t.nextStamp mode (.bytes []))
  ({ made with nextStamp := t.nextStamp + 1 }, ⟨.file loc t.nextStamp, 0⟩)

/-- Open a file for writing and empty it; make it if its name is free. -/
def openTruncated (t : Tree) (p : Path) : Except Fault (Tree × Handle) :=
  if Path.holdsNul p.text then .error .nulInName
  else
    match t.locate .make p with
    | .error e => .error (.system e)
    | .ok (.vacant loc) => .ok (t.createAt loc resultMode)
    | .ok (.found loc) =>
      match t.node? loc with
      | some (.file stamp mode _) =>
        .ok (t.set loc (.file stamp mode (.bytes [])), ⟨.file loc stamp, 0⟩)
      | some (.device kind) => .ok (t, ⟨.device kind, 0⟩)
      | _ => .error (.system .isDirectory)

/-- Write at the offset of a handle and move it on. -/
def write (t : Tree) (h : Handle) (data : List UInt8) : Except Fault (Tree × Handle) :=
  match h.target with
  | .device .null => .ok (t, h)
  | .device .full => if data.isEmpty then .ok (t, h) else .error (.system .noSpace)
  | .file loc stamp =>
    let moved := { h with offset := h.offset + data.length }
    match t.node? loc with
    | some (.file s mode content) =>
      if s = stamp && !data.isEmpty then
        .ok (t.set loc (.file s mode (.bytes (overwrite content.data h.offset data))), moved)
      else .ok (t, moved)
    | _ => .ok (t, moved)

/-- Keep the file of a handle busy: nothing starts from it. -/
def hold (t : Tree) (h : Handle) : Tree :=
  match h.target with
  | .file _ stamp => { t with busy := stamp :: t.busy }
  | .device _ => t

/-- Holding a file changes no node. -/
@[simp] theorem node?_hold (t : Tree) (h : Handle) (loc : Location) :
    (t.hold h).node? loc = t.node? loc := by
  unfold hold
  split <;> rfl

/-- Append to the file at a path, made if need be; what cannot be appended is lost. -/
def append (t : Tree) (p : Path) (data : List UInt8) : Tree :=
  match t.locate .make p with
  | .ok (.vacant loc) =>
    let made := t.set loc (.file t.nextStamp plainMode (.bytes data))
    { made with nextStamp := t.nextStamp + 1 }
  | .ok (.found loc) =>
    match t.node? loc with
    | some (.file stamp mode (.bytes content)) =>
      t.set loc (.file stamp mode (.bytes (content ++ data)))
    | _ => t
  | .error _ => t

end Tree

end BenchSweep
