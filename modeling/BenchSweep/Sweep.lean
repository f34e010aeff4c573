import BenchSweep.Progress
import BenchSweep.Runner
import BenchSweep.Settings

/-!
# Sweeps

A sweep runs the trials of one benchmark: every allocator, every thread count from
one up, every iteration.  Trials that fail are counted and never stop it; a failure
of the archive or of the runner does.

* `Sweep.run` : run a sweep by a recipe.
* `Sweep.runConfigured` : run a sweep by the recipe in the benchmark's directory.
-/

namespace BenchSweep

/-- What to sweep. -/
structure Sweep where
  directory : Path
  benchmark : String
  allocators : List String
  maxThreads : Nat
  iterations : Nat
  deriving DecidableEq, Repr

/-- The highest number that a count of failures or a total shows. -/
def countCap : Nat := UInt32.size - 1

/-- Add to a count without passing its cap. -/
def addCapped (count more : Nat) : Nat := min countCap (count + more)

/-- What a sweep that went through leaves behind. -/
structure Tally where
  logs : List Path
  failures : Nat
  deriving DecidableEq, Repr

namespace Sweep

/-! ## Parts of a sweep -/

/-- A sweep over settings. -/
def ofSettings (settings : Settings) (directory : Path) (benchmark : String)
    (iterations : Nat) : Sweep where
  directory
  benchmark
  allocators := settings.allocators
  maxThreads := settings.maxThreads
  iterations

/-- The program that tests an allocator. -/
def program (s : Sweep) (allocator : String) : Path :=
  s.directory.join (s.benchmark ++ "-" ++ allocator)

/-- The arguments of the trials on a number of threads. -/
def args (recipe : Recipe) (threads : Nat) : List String :=
  Text.decimalText threads :: recipe.extraArgs

/-- One trial of a sweep. -/
def trial (s : Sweep) (recipe : Recipe) (allocator : String) (threads iteration : Nat) :
    Trial where
  allocator
  threads
  iteration
  program := s.program allocator
  args := args recipe threads

/-! ## The course of a sweep -/

/-- The state of a running sweep. -/
structure Scene (σ : Type) where
  tree : Tree
  state : σ
  progress : Array Progress
  logs : Array Path
  failures : Nat

/-- A part of a sweep: it may fail, and what it did until then stays done. -/
abbrev Course (σ : Type) := ExceptT Failure (StateM (Scene σ))

variable {σ : Type}

/-- Tell the user how far the sweep has come. -/
def tell (p : Progress) : Course σ Unit :=
  modify fun scene => { scene with progress := scene.progress.push p }

/-- Make something of the file tree. -/
def withTree {α : Type} (f : Tree → Except Failure (Tree × α)) : Course σ α := do
  match f (← get).tree with
  | .ok (tree, result) =>
    modify fun scene => { scene with tree }
    return result
  | .error failure => throw failure

/-- See to it that the folder of an allocator is there. -/
def ensureFolder (archive : Archive) (allocator : String) : Course σ Unit :=
  withTree fun tree => (archive.ensureFolder tree allocator).map fun made => (made, ())

/-- Open the log of an allocator and a number of threads. -/
def openLog (s : Sweep) (archive : Archive) (allocator : String) (threads : Nat) :
    Course σ ResultLog := do
  let log ← withTree fun tree => archive.openLog tree allocator s.benchmark threads
  modify fun scene => { scene with logs := scene.logs.push log.path }
  return log

/-- Have a trial carried out, and count it if it fails. -/
def attempt (runner : Runner σ) (recipe : Recipe) (trial : Trial) (log : ResultLog) :
    Course σ (Outcome × ResultLog) := do
  let scene ← get
  let left := runner.run trial recipe.timeout log scene.tree scene.state
  set { scene with tree := left.tree, state := left.state }
  let outcome ← left.verdict
  if outcome.isFailure then
    modify fun scene => { scene with failures := addCapped scene.failures 1 }
  return (outcome, left.log)

/-- The iterations on a number of threads, `left` of them from `iteration` on. -/
def iterate (s : Sweep) (recipe : Recipe) (runner : Runner σ) (allocator : String)
    (threads : Nat) : (left iteration : Nat) → ResultLog → Course σ Unit
  | 0, _, _ => pure ()
  | left + 1, iteration, log => do
    let trial := s.trial recipe allocator threads iteration
    tell (.started trial recipe.timeLimit)
    let (outcome, log) ← attempt runner recipe trial log
    tell (.finished trial outcome)
    iterate s recipe runner allocator threads left (iteration + 1) log

/-- The thread counts of an allocator, `left` of them from `threads` on. -/
def overThreads (s : Sweep) (recipe : Recipe) (runner : Runner σ) (archive : Archive)
    (allocator : String) : (left threads : Nat) → Course σ Unit
  | 0, _ => pure ()
  | left + 1, threads => do
    tell (.threads allocator threads)
    let log ← s.openLog archive allocator threads
    s.iterate recipe runner allocator threads s.iterations 1 log
    overThreads s recipe runner archive allocator left (threads + 1)

/-- The allocators of a sweep. -/
def overAllocators (s : Sweep) (recipe : Recipe) (runner : Runner σ) (archive : Archive) :
    List String → Course σ Unit
  | [] => pure ()
  | allocator :: rest => do
    tell (.allocator allocator)
    ensureFolder archive allocator
    s.overThreads recipe runner archive allocator s.maxThreads 1
    overAllocators s recipe runner archive rest

/-- A whole sweep. -/
def course (s : Sweep) (recipe : Recipe) (runner : Runner σ) : Course σ Unit := do
  if s.iterations = 0 then throw .noIterations
  let archive ← withTree fun tree => Archive.open? tree s.directory
  s.overAllocators recipe runner archive s.allocators

/-! ## Running -/

/-- A sweep that was run: whether it went through, what it told, and what it left. -/
structure Ran (σ : Type) where
  verdict : Except Failure Tally
  progress : List Progress
  tree : Tree
  state : σ

/-- Run a sweep by a recipe, from a file tree and a state of the runner. -/
def run (s : Sweep) (recipe : Recipe) (runner : Runner σ) (tree : Tree) (state : σ) : Ran σ :=
  let (result, scene) := (s.course recipe runner).run.run ⟨tree, state, #[], #[], 0⟩
  { verdict := result.map fun _ => ⟨scene.logs.toList, scene.failures⟩
    progress := scene.progress.toList
    tree := scene.tree
    state := scene.state }

/-- Run a sweep by the recipe in the benchmark's directory, which is read before
anything is made. -/
def runConfigured (s : Sweep) (runner : Runner σ) (tree : Tree) (state : σ) : Ran σ :=
  match Recipe.load tree s.directory with
  | .error failure => ⟨.error failure, [], tree, state⟩
  | .ok recipe => s.run recipe runner tree state

/-! ## In words -/

/-- The lines that open the output of a sweep. -/
def banner (colors : Bool) (directory : Path) (iterations : Nat) : String :=
  Style.heading.paint colors ("=== dir = " ++ directory.text) ++ "\n" ++
    Style.heading.paint colors ("=== iters = " ++ Text.decimalText iterations)

end Sweep

end BenchSweep
