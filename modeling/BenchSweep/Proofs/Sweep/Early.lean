import BenchSweep.Proofs.Files.Resolve
import BenchSweep.Proofs.Sweep.Calls

/-!
# Sweeps that fail early

A sweep by the recipe in its directory checks all that it can before it makes anything.

* `Recipe.load_of_no_file`, `Recipe.load_of_no_text`, `Recipe.load_of_text` : what becomes of the
  recipe of a directory, by what its path resolves to.
* `Sweep.FailsEarly` : a sweep that failed before it told, made or called anything.
* `Sweep.early_failures` : a sweep that fails without having told anything has failed early, and
  the failures of its recipe, of its iterations and of its archive are such.
-/

namespace BenchSweep

/-! ## Recipes -/

/-- Is the failure one of what was asked for: of the recipe, or of the iterations? -/
def Failure.isOfRequest : Failure → Bool
  | configNotFound _ => true
  | configUnreadable _ _ => true
  | configMalformed _ _ _ => true
  | timeLimitMissing _ => true
  | timeLimitInvalid _ _ => true
  | noIterations => true
  | _ => false

namespace Recipe

variable {tree : Tree} {dir path : Path} {text : String} {recipe : Recipe} {f : Failure}

/-- Is there a regular file where the recipe of a directory is looked for? -/
def HasFile (tree : Tree) (dir : Path) : Prop :=
  ∃ stamp mode content, tree.Resolves (dir.join fileName) (.file stamp mode content)

/-- Does that file hold the text? -/
def HasText (tree : Tree) (dir : Path) (text : String) : Prop :=
  ∃ stamp mode content, tree.Resolves (dir.join fileName) (.file stamp mode content) ∧
    utf8 text = content.data

/-- Is the recipe of a directory a good one? -/
def Good (tree : Tree) (dir : Path) (recipe : Recipe) : Prop :=
  ∃ text, HasText tree dir text ∧ parse (dir.join fileName) text = .ok recipe

theorem load_of_no_file (h : ¬ HasFile tree dir) :
    load tree dir = .error (.configNotFound (dir.join fileName)) := by
  have hfile : tree.isFile (dir.join fileName) = false := by
    simpa using mt Tree.isFile_iff.1 h
  rw [load, hfile]
  rfl

theorem load_of_no_text (h : HasFile tree dir) (htext : ¬ ∃ text, HasText tree dir text) :
    load tree dir = .error (.configUnreadable (dir.join fileName) .notText) := by
  obtain ⟨stamp, mode, content, hresolves⟩ := h
  have hnone : ofUtf8? content.data = none := by
    cases hdata : ofUtf8? content.data with
    | none => rfl
    | some text =>
        exact absurd ⟨text, _, _, _, hresolves, ofUtf8?_eq_some_iff.1 hdata⟩ htext
  rw [load, Tree.isFile_iff.2 ⟨stamp, mode, content, hresolves⟩]
  simp only [Tree.readText_of_resolves hresolves, hnone]
  rfl

theorem load_of_text (h : HasText tree dir text) :
    load tree dir = parse (dir.join fileName) text := by
  obtain ⟨stamp, mode, content, hresolves, htext⟩ := h
  rw [load, Tree.isFile_iff.2 ⟨stamp, mode, content, hresolves⟩]
  simp only [Tree.readText_of_resolves hresolves, ofUtf8?_eq_some_iff.2 htext]
  rfl

/-- There is no recipe where there is no directory. -/
theorem load_of_no_directory (h : ¬ ∃ D, tree.Reaches dir D) :
    load tree dir = .error (.configNotFound (dir.join fileName)) := by
  apply load_of_no_file
  rintro ⟨stamp, mode, content, hresolves⟩
  obtain ⟨loc, hleads, -⟩ := hresolves.leads
  exact h (Tree.exists_reaches_of_join (by decide) hleads)

/-- A recipe is refused for a line of its text, or for its time limit. -/
theorem parse_error (h : parse path text = .error f) :
    (∃ n fault, f = .configMalformed path n fault) ∨ f = .timeLimitMissing path ∨
      ∃ value, f = .timeLimitInvalid path value := by
  rw [parse] at h
  split at h
  · cases h
    exact Or.inl ⟨_, _, rfl⟩
  · simp only [ofSections] at h
    split at h
    · cases h
      exact Or.inr (Or.inl rfl)
    · split at h
      · cases h
        exact Or.inr (Or.inr ⟨_, rfl⟩)
      · cases h

/-- Why the recipe of a directory is refused. -/
theorem load_error_cases (h : load tree dir = .error f) :
    (¬ HasFile tree dir ∧ f = .configNotFound (dir.join fileName)) ∨
      (HasFile tree dir ∧ (¬ ∃ text, HasText tree dir text) ∧
        f = .configUnreadable (dir.join fileName) .notText) ∨
      ∃ text, HasText tree dir text ∧ parse (dir.join fileName) text = .error f := by
  by_cases hfile : HasFile tree dir
  · by_cases htext : ∃ text, HasText tree dir text
    · obtain ⟨text, htext⟩ := htext
      rw [load_of_text htext] at h
      exact Or.inr (Or.inr ⟨text, htext, h⟩)
    · rw [load_of_no_text hfile htext] at h
      exact Or.inr (Or.inl ⟨hfile, htext, (Except.error.inj h).symm⟩)
  · rw [load_of_no_file hfile] at h
    exact Or.inl ⟨hfile, (Except.error.inj h).symm⟩

theorem load_eq_ok_iff : load tree dir = .ok recipe ↔ Good tree dir recipe := by
  constructor
  · intro h
    by_cases hfile : HasFile tree dir
    · by_cases htext : ∃ text, HasText tree dir text
      · obtain ⟨text, htext⟩ := htext
        exact ⟨text, htext, (load_of_text htext).symm.trans h⟩
      · cases (load_of_no_text hfile htext).symm.trans h
    · cases (load_of_no_file hfile).symm.trans h
  · rintro ⟨text, htext, hparse⟩
    rw [load_of_text htext, hparse]

end Recipe

namespace Sweep

variable {σ : Type} {s : Sweep} {recipe : Recipe} {runner : Runner σ} {tree : Tree} {state : σ}
  {d d' : Desk σ} {step : Step} {f : Failure}

/-! ## Failing early -/

/-- The sweep fails, and it has told nothing, left the files and the runner as they were, and made
no call. -/
structure FailsEarly (s : Sweep) (runner : Runner σ) (tree : Tree) (state : σ) (f : Failure) :
    Prop where
  ran : s.runConfigured runner tree state = ⟨.error f, [], tree, state⟩
  calls : (s.runConfigured runner.observed tree (state, [])).state.2 = []

/-- The failures that a sweep meets before it begins, in this order. -/
inductive Obstacle (s : Sweep) (tree : Tree) : Failure → Prop
  | recipe {f : Failure} (h : Recipe.load tree s.directory = .error f) : Obstacle s tree f
  | iterations {recipe : Recipe} (h : Recipe.load tree s.directory = .ok recipe)
      (hi : s.iterations = 0) : Obstacle s tree .noIterations
  | archive {recipe : Recipe} {f : Failure} (h : Recipe.load tree s.directory = .ok recipe)
      (hi : s.iterations ≠ 0) (hopen : Archive.open? tree s.directory = .error f) :
      Obstacle s tree f

/-- Behind an obstacle there is nothing, whatever the runner is. -/
theorem Obstacle.runConfigured (h : Obstacle s tree f) (runner : Runner σ) (state : σ) :
    s.runConfigured runner tree state = ⟨.error f, [], tree, state⟩ := by
  cases h with
  | recipe h => exact runConfigured_of_load_error h
  | iterations h hi => rw [runConfigured_of_load_ok h, run_of_no_iterations hi]
  | archive h hi hopen => rw [runConfigured_of_load_ok h, run_of_open_error hi hopen]

theorem Obstacle.failsEarly (h : Obstacle s tree f) : s.FailsEarly runner tree state f :=
  ⟨h.runConfigured runner state, by rw [h.runConfigured runner.observed]⟩

/-- A sweep that fails has met an obstacle, or has told that a step began, which then failed. -/
theorem obstacle_or_fails (h : (s.runConfigured runner tree state).verdict = .error f) :
    Obstacle s tree f ∨ (s.runConfigured runner tree state).progress ≠ [] ∧
      ∃ recipe d step d', Fails s recipe runner d step f d' := by
  cases hload : Recipe.load tree s.directory with
  | error e =>
      rw [runConfigured_of_load_error hload] at h
      cases h
      exact Or.inl (.recipe hload)
  | ok recipe =>
      rw [runConfigured_of_load_ok hload] at h ⊢
      by_cases hi : s.iterations = 0
      · rw [run_of_no_iterations hi] at h
        cases h
        exact Or.inl (.iterations hload hi)
      · rcases fails_of_run_error hi h with
          hopen | ⟨made, hopen, reply, done, step, rest, d, d', hplan, ht, hf⟩
        · exact Or.inl (.archive hload hi hopen)
        · refine Or.inr ⟨?_, recipe, d, step, d', hf⟩
          rw [run_of_fails hi hopen hplan ht hf]
          simp

theorem failsEarly_iff : s.FailsEarly runner tree state f ↔ Obstacle s tree f := by
  refine ⟨fun h => ?_, Obstacle.failsEarly⟩
  rcases obstacle_or_fails (congrArg Ran.verdict h.ran) with hobstacle | ⟨hprogress, -⟩
  · exact hobstacle
  · exact absurd (congrArg Ran.progress h.ran) hprogress

/-- A sweep that has told nothing has failed early. -/
theorem failsEarly_of_progress (h : (s.runConfigured runner tree state).verdict = .error f)
    (hprogress : (s.runConfigured runner tree state).progress = []) :
    s.FailsEarly runner tree state f :=
  failsEarly_iff.2 ((obstacle_or_fails h).resolve_right fun hfails => hfails.1 hprogress)

/-! ## Failures by what they are of -/

/-- A failure of the archive is none of what was asked for. -/
theorem isOfRequest_of_open_error (h : Archive.open? tree s.directory = .error f) :
    f.isOfRequest = false := by
  rw [Archive.open?_eq] at h
  cases hmade : ensureDirectory tree (s.directory.join Archive.directoryName) with
  | ok made =>
      rw [hmade] at h
      cases h
  | error e =>
      rw [hmade] at h
      cases h
      rcases ensureDirectory_error hmade with rfl | ⟨fault, rfl⟩ <;> rfl

/-- An obstacle of what was asked for is the recipe, or the iterations behind a good recipe. -/
theorem Obstacle.of_isOfRequest (h : Obstacle s tree f) (hf : f.isOfRequest = true) :
    Recipe.load tree s.directory = .error f ∨
      f = .noIterations ∧ s.iterations = 0 ∧ ∃ recipe, Recipe.Good tree s.directory recipe := by
  cases h with
  | recipe h => exact Or.inl h
  | iterations h hi => exact Or.inr ⟨rfl, hi, _, Recipe.load_eq_ok_iff.1 h⟩
  | archive h hi hopen =>
      rw [isOfRequest_of_open_error hopen] at hf
      cases hf

/-- A step that fails does so for the archive or for the runner. -/
theorem Fails.isOfRequest_eq_false
    (hrunner : ∀ trial timeout log t st f, (runner.run trial timeout log t st).verdict = .error f →
      f.isOfRequest = false)
    (h : Fails s recipe runner d step f d') : f.isOfRequest = false := by
  cases h with
  | folder h =>
      rcases ensureDirectory_error h with rfl | ⟨fault, rfl⟩ <;> rfl
  | log h =>
      dsimp only [Archive.openLog] at h
      split at h
      · cases h
      · cases h
        rfl
  | trial h hv =>
      subst h
      exact hrunner _ _ _ _ _ _ hv

/-! ## All early failures -/

/-- There is no configuration exactly where there is no regular file. -/
theorem failsEarly_configNotFound_iff {path : Path} :
    s.FailsEarly runner tree state (.configNotFound path) ↔
      path = s.directory.join Recipe.fileName ∧ ¬ Recipe.HasFile tree s.directory := by
  rw [failsEarly_iff]
  constructor
  · intro h
    rcases h.of_isOfRequest rfl with hload | ⟨hf, -⟩
    · rcases Recipe.load_error_cases hload with ⟨hfile, hf⟩ | ⟨-, -, hf⟩ | ⟨text, -, hparse⟩
      · cases hf
        exact ⟨rfl, hfile⟩
      · cases hf
      · simpa using Recipe.parse_error hparse
    · cases hf
  · rintro ⟨rfl, hfile⟩
    exact .recipe (Recipe.load_of_no_file hfile)

/-- A configuration is unreadable exactly if it is a regular file that holds no text. -/
theorem failsEarly_configUnreadable_iff {path : Path} {fault : Fault} :
    s.FailsEarly runner tree state (.configUnreadable path fault) ↔
      path = s.directory.join Recipe.fileName ∧ fault = .notText ∧
        Recipe.HasFile tree s.directory ∧ ¬ ∃ text, Recipe.HasText tree s.directory text := by
  rw [failsEarly_iff]
  constructor
  · intro h
    rcases h.of_isOfRequest rfl with hload | ⟨hf, -⟩
    · rcases Recipe.load_error_cases hload with ⟨-, hf⟩ | ⟨hfile, htext, hf⟩ | ⟨text, -, hparse⟩
      · cases hf
      · cases hf
        exact ⟨rfl, rfl, hfile, htext⟩
      · simpa using Recipe.parse_error hparse
    · cases hf
  · rintro ⟨rfl, rfl, hfile, htext⟩
    exact .recipe (Recipe.load_of_no_text hfile htext)

/-- Missing iterations are reported exactly behind a good recipe. -/
theorem failsEarly_noIterations_iff :
    s.FailsEarly runner tree state .noIterations ↔
      s.iterations = 0 ∧ ∃ recipe, Recipe.Good tree s.directory recipe := by
  rw [failsEarly_iff]
  constructor
  · intro h
    rcases h.of_isOfRequest rfl with hload | ⟨-, hi, hgood⟩
    · rcases Recipe.load_error_cases hload with ⟨-, hf⟩ | ⟨-, -, hf⟩ | ⟨text, -, hparse⟩
      · cases hf
      · cases hf
      · simpa using Recipe.parse_error hparse
    · exact ⟨hi, hgood⟩
  · rintro ⟨hi, recipe, hgood⟩
    exact .iterations (Recipe.load_eq_ok_iff.2 hgood) hi

/-- A sweep that fails without having told anything has left the files as they were and called
nobody.  This is so for a recipe that is missing, that is no text, or that is refused, in this
order; then for missing iterations; and then for an archive that cannot be opened, such as one
whose place is taken, is a link that leads nowhere, or is below something that is no directory.
Once a sweep has told something, it fails for none of the former, unless its runner does. -/
theorem early_failures (s : Sweep) (runner : Runner σ) (tree : Tree) (state : σ) :
    let config := s.directory.join Recipe.fileName
    let results := s.directory.join Archive.directoryName
    let ran := s.runConfigured runner tree state
    (∀ f, ran.verdict = .error f → ran.progress = [] → s.FailsEarly runner tree state f) ∧
      (∀ path, s.FailsEarly runner tree state (.configNotFound path) ↔
        path = config ∧ ¬ Recipe.HasFile tree s.directory) ∧
      (∀ path fault, s.FailsEarly runner tree state (.configUnreadable path fault) ↔
        path = config ∧ fault = .notText ∧ Recipe.HasFile tree s.directory ∧
          ¬ ∃ text, Recipe.HasText tree s.directory text) ∧
      (∀ text f, Recipe.HasText tree s.directory text → Recipe.parse config text = .error f →
        s.FailsEarly runner tree state f) ∧
      (s.FailsEarly runner tree state .noIterations ↔
        s.iterations = 0 ∧ ∃ recipe, Recipe.Good tree s.directory recipe) ∧
      (∀ recipe f, Recipe.Good tree s.directory recipe → s.iterations ≠ 0 →
        Archive.open? tree s.directory = .error f → s.FailsEarly runner tree state f) ∧
      (∀ node, tree.Resolves results node → node.isDirectory = false →
        Archive.open? tree s.directory = .error (.notADirectory results)) ∧
      (∀ D, tree.Reaches s.directory D → tree.IsLinkAt (Archive.directoryName :: D) →
        (¬ ∃ node, tree.Resolves results node) →
        ∃ fault, Archive.open? tree s.directory = .error (.directoryNotMade results fault)) ∧
      (∀ node, tree.Resolves s.directory node → node.isDirectory = false →
        ∃ fault, Archive.open? tree s.directory = .error (.directoryNotMade results fault)) ∧
      ((∀ trial timeout log t st f, (runner.run trial timeout log t st).verdict = .error f →
          f.isOfRequest = false) →
        ∀ f, ran.verdict = .error f → ran.progress ≠ [] → f.isOfRequest = false) := by
  refine ⟨fun f => failsEarly_of_progress, fun path => failsEarly_configNotFound_iff,
    fun path fault => failsEarly_configUnreadable_iff, fun text f htext hparse => ?_,
    failsEarly_noIterations_iff, fun recipe f hgood hi hopen => ?_,
    fun node => Archive.open?_of_no_directory, fun D => Archive.open?_of_dangling_link,
    fun node => Archive.open?_below_no_directory, fun hrunner f hverdict hprogress => ?_⟩
  · exact failsEarly_iff.2 (.recipe ((Recipe.load_of_text htext).trans hparse))
  · exact failsEarly_iff.2 (.archive (Recipe.load_eq_ok_iff.2 hgood) hi hopen)
  · rcases obstacle_or_fails hverdict with hobstacle | ⟨-, recipe, d, step, d', hfails⟩
    · exact absurd (congrArg Ran.progress (hobstacle.runConfigured runner state)) hprogress
    · exact hfails.isOfRequest_eq_false hrunner

/-- A working directory with a recipe, in which the place of the archive is a link that leads
nowhere. -/
def linkTree : Tree :=
  (Tree.bare.set ["config", "bench", "tmp"]
    (.file 0 0o644 (.bytes (utf8 "[DEFAULT]\nmaxtime = 1\n")))).set ["Results", "bench", "tmp"]
    (.link "nowhere")

theorem early_failures_link :
    (⟨⟨"."⟩, "larson", ["libc"], 8, 1⟩ : Sweep).FailsEarly (Runner.scripted []) linkTree 0
      (.directoryNotMade ⟨"./Results"⟩ (.system .alreadyExists)) :=
  (early_failures _ (Runner.scripted []) linkTree 0).1 _ (by decide +kernel) (by decide +kernel)

end Sweep

end BenchSweep
