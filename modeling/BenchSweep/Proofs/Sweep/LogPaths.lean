import BenchSweep.Proofs.Files.Resolve
import BenchSweep.Proofs.Sweep.Places

/-!
# Paths of logs

All paths that belong to a benchmark are made from the path of its directory by joining names to it.
Paths are compared by their parts, so that it does not matter how the directory is written: empty,
with a slash at the end, or with slashes and dots that do not count.

* `Archive.parts_root`, `Archive.parts_folder`, `Archive.parts_logPath`, `Sweep.parts_program` : the
  parts of these paths behind those of the directory.
* `Archive.logPath_distinct` : the path of a log tells what it is the log of, and no other path of
  the benchmark is the path of a log.
-/

namespace BenchSweep

variable {allocator benchmark : String}

/-! ## Paths below the directory of a benchmark -/

/-- A program is in the directory of its benchmark. -/
theorem Sweep.parts_program (s : Sweep) (hbenchmark : '/' ∉ s.benchmark.toList)
    (hallocator : IsComponent allocator) :
    (s.program allocator).parts = s.directory.parts ++ [s.benchmark ++ "-" ++ allocator] :=
  Path.parts_join _ (isComponent_dash hbenchmark hallocator.2.1)

namespace Archive

/-- The results are in the directory of the benchmark. -/
theorem parts_root (dir : Path) : (ofDirectory dir).root.parts = dir.parts ++ [directoryName] :=
  Path.parts_join dir isComponent_directoryName

/-- The folder of an allocator is in the results. -/
theorem parts_folder (dir : Path) (hallocator : IsComponent allocator) :
    ((ofDirectory dir).folder allocator).parts = dir.parts ++ [directoryName, allocator] := by
  rw [folder, Path.parts_join _ hallocator, parts_root, List.append_assoc, List.singleton_append]

/-- A log is in the folder of its allocator. -/
theorem parts_logPath (dir : Path) (hallocator : IsComponent allocator)
    (hbenchmark : '/' ∉ benchmark.toList) (threads : Nat) :
    ((ofDirectory dir).logPath allocator benchmark threads).parts =
      dir.parts ++ [directoryName, allocator, logName benchmark threads] := by
  rw [logPath, Path.parts_join _ (isComponent_logName hbenchmark threads),
    parts_folder dir hallocator, List.append_assoc]
  rfl

/-! ## Logs apart from one another, and from all else -/

/-- Whatever the directory of a benchmark is, the path of a log tells the allocator, the benchmark
and the number of threads, as long as allocators are single components and benchmarks have no slash
in their names, however many dashes and digits are in them.  No path of a log is that of the recipe,
of a program, of the results, or of the folder of an allocator.  All this holds of the parts of the
paths, and so of their texts. -/
theorem logPath_distinct (dir : Path) (hallocator : IsComponent allocator)
    (hbenchmark : '/' ∉ benchmark.toList) (threads : Nat) :
    let archive := ofDirectory dir
    let log := archive.logPath allocator benchmark threads
    (∀ other name count, IsComponent other → '/' ∉ name.toList →
      (log.parts = (archive.logPath other name count).parts ↔
        allocator = other ∧ benchmark = name ∧ threads = count)) ∧
    log.parts ≠ (dir.join Recipe.fileName).parts ∧
    (∀ (s : Sweep) other, s.directory = dir → '/' ∉ s.benchmark.toList → IsComponent other →
      log.parts ≠ (s.program other).parts) ∧
    log.parts ≠ archive.root.parts ∧
    ∀ other, IsComponent other → log.parts ≠ (archive.folder other).parts := by
  intro archive log
  have hlog : log.parts = dir.parts ++ [directoryName, allocator, logName benchmark threads] :=
    parts_logPath dir hallocator hbenchmark threads
  -- a path with fewer names below the directory is another one
  have hfewer {p : Path} (names : List String) (hp : p.parts = dir.parts ++ names)
      (hlength : names.length < 3) : log.parts ≠ p.parts := by
    intro heq
    rw [hlog, hp] at heq
    have hnames := congrArg List.length (List.append_cancel_left heq)
    exact absurd hlength (by simp [← hnames])
  refine ⟨fun other name count hother hname => ?_, ?_, fun s other hdir hbench hother => ?_, ?_,
    fun other hother => ?_⟩
  · rw [hlog, parts_logPath dir hother hname, List.append_cancel_left_eq]
    simp [logName_inj]
  · exact hfewer _ (Path.parts_join dir (by decide)) (by simp)
  · exact hfewer _ (hdir ▸ s.parts_program hbench hother) (by simp)
  · exact hfewer _ (parts_root dir) (by simp)
  · exact hfewer _ (parts_folder dir hother) (by simp)

/-- The dashes and digits of the names fall together in different ways. -/
theorem logPath_distinct_dashes :
    let dir : Path := ⟨"./r//x/."⟩
    let archive := ofDirectory dir
    let sweep : Sweep := ⟨dir, "Results", ["libc-1"], 1, 1⟩
    let log := archive.logPath "libc-1" "x-1" 2
    IsComponent "libc-1" ∧ '/' ∉ "x-1".toList ∧
      log.parts = [".", "r", "x", "Results", "libc-1", "x-1-2"] ∧
      log.parts ≠ (archive.logPath "libc-1" "x" 12).parts ∧
      log.parts ≠ (sweep.program "libc-1").parts ∧
      log.parts ≠ (archive.folder "x-1-2").parts := by
  intro dir archive sweep log
  have hallocator : IsComponent "libc-1" := by decide
  have hbenchmark : '/' ∉ "x-1".toList := by decide
  obtain ⟨hlogs, -, hprograms, -, hfolders⟩ := logPath_distinct dir hallocator hbenchmark 2
  refine ⟨hallocator, hbenchmark, by decide +kernel, fun heq => ?_, ?_, ?_⟩
  · exact absurd ((hlogs "libc-1" "x" 12 hallocator (by decide)).1 heq).2.2 (by decide)
  · exact hprograms sweep "libc-1" rfl (by decide) hallocator
  · exact hfolders "x-1-2" (by decide)

end Archive

end BenchSweep
