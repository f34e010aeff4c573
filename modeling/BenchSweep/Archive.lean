import BenchSweep.Failure
import BenchSweep.Files.Operations
import BenchSweep.Text.Decimal

/-!
# Archives of results

The directory `Results` of a benchmark, with a folder for each allocator and in it
a log for each thread count.

* `Archive.open?` : the archive of a benchmark directory, made if need be.
* `Archive.logPath` : the place of a log.
* `Archive.openLog` : an emptied log to write to.
* `ResultLog.writeLine` : write a line to a log.
-/

namespace BenchSweep

/-- The results of a benchmark. -/
structure Archive where
  root : Path
  deriving DecidableEq, Repr

/-- An open result log. -/
structure ResultLog where
  path : Path
  handle : Handle
  deriving DecidableEq, Repr

/-- See to it that there is a directory at a path; its parent is not made.  A name that is taken
when the directory is to be made is looked at once more: a directory is as good as a new one. -/
def ensureDirectory (t : Tree) (p : Path) : Except Failure Tree :=
  if t.pathExists p then
    if t.isDirectory p then .ok t else .error (.notADirectory p)
  else
    match t.makeDirectory p with
    | .ok made => .ok made
    | .error fault =>
      if fault = .system .alreadyExists ∧ t.isDirectory p then .ok t
      else .error (.directoryNotMade p fault)

/-- The second look finds no directory where the first one found nothing. -/
theorem ensureDirectory_eq (t : Tree) (p : Path) :
    ensureDirectory t p =
      if t.pathExists p then
        if t.isDirectory p then .ok t else .error (.notADirectory p)
      else
        match t.makeDirectory p with
        | .ok made => .ok made
        | .error fault => .error (.directoryNotMade p fault) := by
  rw [ensureDirectory]
  by_cases hexists : t.pathExists p
  · rw [if_pos hexists, if_pos hexists]
  · have hdir : ¬ t.isDirectory p := by
      intro hdir
      rw [Tree.isDirectory, Option.any_eq_true] at hdir
      obtain ⟨node, hstat, -⟩ := hdir
      exact hexists (by rw [Tree.pathExists, hstat]; rfl)
    rw [if_neg hexists, if_neg hexists]
    cases t.makeDirectory p with
    | ok made => rfl
    | error fault => exact if_neg fun h => hdir h.2

namespace Archive

/-- The name of the directory that holds the results of a benchmark. -/
def directoryName : String := "Results"

/-- The archive of a benchmark directory. -/
def ofDirectory (dir : Path) : Archive := ⟨dir.join directoryName⟩

/-- The archive of a benchmark directory, made if it is not there. -/
def open? (t : Tree) (dir : Path) : Except Failure (Tree × Archive) :=
  (ensureDirectory t (ofDirectory dir).root).map fun made => (made, ofDirectory dir)

/-- The folder of an allocator. -/
def folder (a : Archive) (allocator : String) : Path := a.root.join allocator

/-- The name of the log of a benchmark on a number of threads. -/
def logName (benchmark : String) (threads : Nat) : String :=
  benchmark ++ "-" ++ Text.decimalText threads

/-- The place of a log. -/
def logPath (a : Archive) (allocator benchmark : String) (threads : Nat) : Path :=
  (a.folder allocator).join (logName benchmark threads)

/-- See to it that the folder of an allocator is there. -/
def ensureFolder (a : Archive) (t : Tree) (allocator : String) : Except Failure Tree :=
  ensureDirectory t (a.folder allocator)

/-- Open a log, emptied; it is made if it is not there, but its folder is not. -/
def openLog (a : Archive) (t : Tree) (allocator benchmark : String) (threads : Nat) :
    Except Failure (Tree × ResultLog) :=
  let path := a.logPath allocator benchmark threads
  match t.openTruncated path with
  | .ok (opened, handle) => .ok (opened, ⟨path, handle⟩)
  | .error fault => .error (.logNotOpened path fault)

end Archive

namespace ResultLog

/-- Write bytes to a log. -/
def write (log : ResultLog) (t : Tree) (data : List UInt8) :
    Except Failure (Tree × ResultLog) :=
  match t.write log.handle data with
  | .ok (written, handle) => .ok (written, { log with handle })
  | .error fault => .error (.logNotWritten log.path fault)

/-- Write a line to a log. -/
def writeLine (log : ResultLog) (t : Tree) (line : String) : Except Failure (Tree × ResultLog) :=
  log.write t (utf8 (line ++ "\n"))

end ResultLog

end BenchSweep
