import BenchSweep.Proofs.CommandLine.Streams
import BenchSweep.Proofs.Settings.Document
import BenchSweep.Proofs.Text.Numeral

/-!
# A settings file or flags

`runbench` is told what to sweep by a settings file, by flags, or by both.

* `Grammar.scanFrom_kind`, `Grammar.scanFrom_single`, `Grammar.scanFrom_repeated` : an operand, and
  options with their values, in front of other arguments.
* `RunBench.Words` : a command line part by part, and `RunBench.Words.benchRequests` the request
  that it makes.
* `RunBench.perform_spellOut` : a request with a settings file does what the one does that says
  itself what the file says.
* `RunBench.settings_as_flags` : a settings file is as good as flags.
-/

namespace BenchSweep.CommandLine

/-! ## Values -/

/-- Does a text not look like an option? -/
def IsValue (s : String) : Prop := s = "-" ∨ s.toList.head? ≠ some '-'

instance (s : String) : Decidable (IsValue s) := inferInstanceAs (Decidable (_ ∨ _))

variable {s : String}

/-- What does not look like an option is taken as a value. -/
theorem IsValue.ofArg (h : IsValue s) : Shape.ofArg s = .value := by
  rcases h with rfl | h
  · rfl
  · unfold Shape.ofArg
    split <;> simp_all

/-- A count is a numeral of a positive number of 32 bits. -/
theorem count?_eq_some_iff {n : Nat} :
    count? s = some n ↔ Text.IsNumeral s.toList n ∧ n < UInt32.size ∧ 0 < n := by
  rw [count?, Option.filter_eq_some_iff, Text.unsigned?_eq_some_iff]
  simp [and_assoc]

/-- A number does not look like an option. -/
theorem isValue_of_count? {n : Nat} (h : count? s = some n) : IsValue s := by
  obtain ⟨hnumeral, -⟩ := count?_eq_some_iff.1 h
  refine Or.inr fun hdash => ?_
  rcases hnumeral.eq_plus_or_digit (List.mem_of_mem_head? hdash) with heq | ⟨d, hd, heq⟩
  · cases heq
  · revert d
    decide

/-- A count is read back from its digits. -/
theorem count?_decimalText {n : Nat} (hpos : 1 ≤ n) (hle : n ≤ Settings.threadBound) :
    count? (Text.decimalText n) = some n := by
  rw [count?_eq_some_iff, Text.decimalText, String.toList_ofList]
  exact ⟨Text.isNumeral_decimal n, Nat.lt_of_le_of_lt hle (by decide), hpos⟩

/-- Of the values given for one option, all or none are for an option. -/
theorem filter_named (other name : String) (values : List String) :
    ((values.map (other, ·)).filter (·.1 == name)).map (·.2) =
      if other = name then values else [] := by
  by_cases h : other = name
  · simp [h, List.filter_map, Function.comp_def]
  · simp [h, List.filter_map, Function.comp_def]

namespace Grammar

variable {g : Grammar} {m : Matches} {rest : List String} {arg name : String} {use : Use}

/-- An operand in front of other arguments. -/
theorem scanFrom_operand (h : IsValue s) :
    g.scanFrom m none (s :: rest) = (g.addOperand m s).bind fun m => g.scanFrom m none rest := by
  have hask : g.ask none s = .take (.operand s) := by
    simp [ask, h.ofArg]
  rw [scanFrom_cons, hask]
  exact map_bind_none g rest _

/-- An option and its value in front of other arguments. -/
theorem scanFrom_option (harg : g.ask none arg = .take (.name name use)) (h : IsValue s) :
    g.scanFrom m none (arg :: s :: rest) =
      (addOption m name use s).bind fun m => g.scanFrom m none rest := by
  have hask : g.ask (some (name, use)) s = .take (.option name use s) := by
    simp [ask, h.ofArg]
  rw [scanFrom_cons, harg]
  show g.scanFrom m (some (name, use)) (s :: rest) = _
  rw [scanFrom_cons, hask]
  exact map_bind_none g rest _

/-- The next operand, of the kind whose turn it is. -/
theorem scanFrom_kind {kind : Kind} (h : IsValue s)
    (hkind : g.operands[m.operands.length]? = some kind) (hadmits : kind.admits s = true) :
    g.scanFrom m none (s :: rest) =
      g.scanFrom { m with operands := m.operands ++ [s] } none rest := by
  have hadd : g.addOperand m s = .ok { m with operands := m.operands ++ [s] } := by
    simp [addOperand, hkind, hadmits]
  rw [scanFrom_operand h, hadd]
  rfl

/-- An option with one value, which may be given once. -/
theorem scanFrom_single {kind : Kind} {value : Option String}
    (harg : g.ask none arg = .take (.name name (.single kind)))
    (h : ∀ s ∈ value, IsValue s ∧ kind.admits s = true) (hhas : m.has name = false)
    (rest : List String) :
    g.scanFrom m none (value.toList.flatMap ([arg, ·]) ++ rest) =
      g.scanFrom { m with options := m.options ++ value.toList.map (name, ·) } none rest := by
  cases value with
  | none => simp
  | some s =>
      obtain ⟨hvalue, hadmits⟩ := h s rfl
      have hadd : addOption m name (.single kind) s =
          .ok { m with options := m.options ++ [(name, s)] } := by
        simp [addOption, hhas, hadmits]
      have hargs : (some s).toList.flatMap ([arg, ·]) ++ rest = arg :: s :: rest := rfl
      rw [hargs, scanFrom_option harg hvalue, hadd]
      rfl

/-- An option that may be given again and again, with one value each time. -/
theorem scanFrom_repeated {kind : Kind} {values : List String}
    (harg : g.ask none arg = .take (.name name (.repeated kind)))
    (h : ∀ s ∈ values, IsValue s ∧ kind.admits s = true) (m : Matches) (rest : List String) :
    g.scanFrom m none (values.flatMap ([arg, ·]) ++ rest) =
      g.scanFrom { m with options := m.options ++ values.map (name, ·) } none rest := by
  induction values generalizing m with
  | nil => simp
  | cons s values ih =>
      obtain ⟨⟨hvalue, hadmits⟩, hvalues⟩ := List.forall_mem_cons.1 h
      have hadd : addOption m name (.repeated kind) s =
          .ok { m with options := m.options ++ [(name, s)] } := by
        simp [addOption, hadmits]
      have hargs : (s :: values).flatMap ([arg, ·]) ++ rest =
          arg :: s :: (values.flatMap ([arg, ·]) ++ rest) := rfl
      rw [hargs, scanFrom_option harg hvalue, hadd, Except.bind, ih hvalues, List.map_cons,
        List.append_assoc]
      rfl

end Grammar

namespace RunBench

/-! ## Arguments one by one -/

/-- What stands on a command line: the operands, a settings file or none, allocators, and a highest
thread count or none. -/
structure Words where
  directory : String
  benchmark : String
  iterations : String
  settings : Option String
  allocators : List String
  maxThreads : Option String

namespace Words

/-- The command line: each allocator is a flag of its own. -/
def args (w : Words) : List String :=
  [w.directory, w.benchmark, w.iterations] ++ (w.settings.toList.flatMap (["--settings", ·]) ++
    (w.allocators.flatMap (["--allocator", ·]) ++
      w.maxThreads.toList.flatMap (["--max-threads", ·])))

/-- Are all of them values, paths not empty, and the numbers positive ones of 32 bits? -/
structure WellFormed (w : Words) : Prop where
  directory : w.directory ≠ "" ∧ IsValue w.directory
  benchmark : IsValue w.benchmark
  iterations : (count? w.iterations).isSome
  settings : ∀ f ∈ w.settings, f ≠ "" ∧ IsValue f
  allocators : ∀ name ∈ w.allocators, IsValue name
  maxThreads : ∀ k ∈ w.maxThreads, (count? k).isSome

/-- What they match. -/
def found (w : Words) : Matches where
  operands := [w.directory, w.benchmark, w.iterations]
  options := w.settings.toList.map ("settings", ·) ++ (w.allocators.map ("allocator", ·) ++
    w.maxThreads.toList.map ("max-threads", ·))

/-- The request that they make. -/
def request (w : Words) : Request where
  directory := ⟨w.directory⟩
  benchmark := w.benchmark
  iterations := (count? w.iterations).getD 0
  settings := w.settings.map Path.mk
  allocators := w.allocators
  maxThreads := w.maxThreads.bind count?
  json := false

/-- What the words match makes their request. -/
theorem ofMatches_found (w : Words) : Request.ofMatches w.found = w.request := by
  have hvalues (name : String) : w.found.values name =
      (if "settings" = name then w.settings.toList else []) ++
        ((if "allocator" = name then w.allocators else []) ++
          if "max-threads" = name then w.maxThreads.toList else []) := by
    simp only [Matches.values, found, List.filter_append, List.map_append, filter_named]
  have hsettings : w.found.value? "settings" = w.settings := by
    simp [Matches.value?, hvalues]
  have hallocators : w.found.values "allocator" = w.allocators := by
    simp [hvalues]
  have hthreads : w.found.count? "max-threads" = w.maxThreads.bind count? := by
    simp [Matches.count?, Matches.value?, hvalues]
  have hjson : w.found.has "json" = false := by
    simp [Matches.has, found]
  rw [Request.ofMatches, hsettings, hallocators, hthreads, hjson]
  rfl

theorem ask_settings :
    grammar.ask none "--settings" = .take (.name "settings" (.single .path)) := rfl

theorem ask_allocator :
    grammar.ask none "--allocator" = .take (.name "allocator" (.repeated .text)) := rfl

theorem ask_maxThreads :
    grammar.ask none "--max-threads" = .take (.name "max-threads" (.single .count)) := rfl

/-- A count does not look like an option. -/
theorem isValue_of_admits (hs : Kind.count.admits s = true) : IsValue s := by
  obtain ⟨n, hn⟩ := Option.isSome_iff_exists.1 hs
  exact isValue_of_count? hn

/-- The three operands are taken in order. -/
theorem scan_operands (w : Words) (h : w.WellFormed) (rest : List String) :
    grammar.scan (w.directory :: w.benchmark :: w.iterations :: rest) =
      grammar.scanFrom ⟨[w.directory, w.benchmark, w.iterations], []⟩ none rest := by
  have hdirectory : Kind.path.admits w.directory = true := by
    simpa [Kind.admits] using h.directory.1
  have hbenchmark : Kind.text.admits w.benchmark = true := rfl
  have hiterations : Kind.count.admits w.iterations = true := h.iterations
  rw [Grammar.scan, Grammar.scanFrom_kind h.directory.2 rfl hdirectory,
    Grammar.scanFrom_kind h.benchmark rfl hbenchmark,
    Grammar.scanFrom_kind (isValue_of_admits hiterations) rfl hiterations]
  rfl

/-- A well-formed command line matches its words. -/
theorem scan_args (w : Words) (h : w.WellFormed) : grammar.scan w.args = .ok w.found := by
  have hsettings : ∀ f ∈ w.settings, IsValue f ∧ Kind.path.admits f = true := fun f hf =>
    ⟨(h.settings f hf).2, by simpa [Kind.admits] using (h.settings f hf).1⟩
  have hallocators : ∀ name ∈ w.allocators, IsValue name ∧ Kind.text.admits name = true :=
    fun name hname => ⟨h.allocators name hname, rfl⟩
  have hthreads : ∀ k ∈ w.maxThreads, IsValue k ∧ Kind.count.admits k = true :=
    fun k hk => ⟨isValue_of_admits (h.maxThreads k hk), h.maxThreads k hk⟩
  have hargs : w.args = w.directory :: w.benchmark :: w.iterations ::
      (w.settings.toList.flatMap (["--settings", ·]) ++
        (w.allocators.flatMap (["--allocator", ·]) ++
          (w.maxThreads.toList.flatMap (["--max-threads", ·]) ++ []))) := by
    rw [List.append_nil]
    rfl
  rw [hargs, w.scan_operands h, Grammar.scanFrom_single ask_settings hsettings rfl,
    Grammar.scanFrom_repeated ask_allocator hallocators,
    Grammar.scanFrom_single ask_maxThreads hthreads (by simp [Matches.has])]
  simp [Grammar.scanFrom, Grammar.finish, grammar, found]

/-- A well-formed command line makes the request of its words. -/
theorem benchRequests (w : Words) (h : w.WellFormed) : RunAll.BenchRequests w.args w.request :=
  ⟨w.found, w.scan_args h, w.ofMatches_found⟩

end Words

/-! ## Settings as flags -/

/-- The request without its settings file, which asks for what the file says itself. -/
def Request.spellOut (r : Request) (s : Settings) : Request :=
  { r with
    settings := none
    allocators := if r.allocators = [] then s.allocators else r.allocators
    maxThreads := some (r.maxThreads.getD s.maxThreads) }

/-- The words without their settings file, with what the file says itself as flags. -/
def Words.spellOut (w : Words) (s : Settings) : Words :=
  { w with
    settings := none
    allocators := if w.allocators = [] then s.allocators else w.allocators
    maxThreads := some (w.maxThreads.getD (Text.decimalText s.maxThreads)) }

variable {r : Request} {settings : Settings} {host : Host} {complaint : String → String}
  {tree : Tree} {file : Path}

/-- What the file says itself can be said on a command line, if no name of the file looks like an
option. -/
theorem Words.wellFormed_spellOut (w : Words) (h : w.WellFormed)
    (hload : Settings.load complaint tree file = .ok settings)
    (hnames : w.allocators = [] → ∀ name ∈ settings.allocators, IsValue name) :
    (w.spellOut settings).WellFormed := by
  obtain ⟨-, hpos, hle⟩ := Settings.bounds_of_load hload
  refine ⟨h.directory, h.benchmark, h.iterations, nofun, fun name hname => ?_, fun k hk => ?_⟩
  · unfold spellOut at hname
    split at hname
    · exact hnames ‹_› name hname
    · exact h.allocators name hname
  · obtain rfl := Option.some.inj hk
    cases hcount : w.maxThreads with
    | none => exact Option.isSome_of_eq_some (count?_decimalText hpos hle)
    | some count => exact h.maxThreads count hcount

/-- Words that say themselves what the file says make the request that does. -/
theorem Words.request_spellOut (w : Words) (h : w.WellFormed)
    (hload : Settings.load complaint tree file = .ok settings) :
    (w.spellOut settings).request = w.request.spellOut settings := by
  obtain ⟨-, hpos, hle⟩ := Settings.bounds_of_load hload
  have hthreads : count? (w.maxThreads.getD (Text.decimalText settings.maxThreads)) =
      some ((w.maxThreads.bind count?).getD settings.maxThreads) := by
    cases hcount : w.maxThreads with
    | none => exact count?_decimalText hpos hle
    | some count =>
        obtain ⟨n, hn⟩ := Option.isSome_iff_exists.1 (h.maxThreads count hcount)
        simp [hn]
  simp only [Words.request, spellOut, Request.spellOut, Option.bind_some, hthreads]
  rfl

/-- A request is carried out in the same way if it says itself what its settings file says. -/
theorem perform_spellOut (colors : Bool) (span : Span)
    (hload : Settings.load host.complaint tree file = .ok settings)
    (hfile : r.settings = some file) :
    perform host colors span (r.spellOut settings) tree = perform host colors span r tree := by
  obtain ⟨hallocators, -⟩ := Settings.bounds_of_load hload
  have hchosen : (r.spellOut settings).override .standard = r.override settings := by
    by_cases h : r.allocators = [] <;> simp [Request.override, Request.spellOut, h, hallocators]
  have hload₁ : r.loadSettings host tree = .ok (r.override settings) := by
    simp only [Request.loadSettings, hfile, hload]
    rfl
  have hload₂ : (r.spellOut settings).loadSettings host tree = .ok (r.override settings) :=
    congrArg Except.ok hchosen
  rw [perform, perform, hload₁, hload₂]
  rfl

/-- A request whose settings file is not loaded ends with the failure. -/
theorem perform_of_load_error (colors : Bool) (span : Span) {failure : Failure}
    (hload : Settings.load host.complaint tree file = .error failure)
    (hfile : r.settings = some file) :
    perform host colors span r tree = ⟨1, ⟨[], utf8 (failure.message ++ "\n")⟩, tree⟩ := by
  have herror : r.loadSettings host tree = .error failure := by
    simp only [Request.loadSettings, hfile, hload]
    rfl
  rw [perform, herror]
  rfl

/-- A file that is not loaded is the one that the failure names. -/
theorem settingsUnusable_of_load {failure : Failure}
    (h : Settings.load complaint tree file = .error failure) :
    ∃ fault, failure = .settingsUnusable file fault := by
  unfold Settings.load at h
  split at h
  · exact ⟨_, (Except.error.inj h).symm⟩
  · split at h
    · exact ⟨_, (Except.error.inj h).symm⟩
    · cases h

/-- A settings file and flags are as good as each other.  If the file is loaded, any command line
that names it has the same answer as one without it that gives the allocators and the highest thread
count itself: those of the flags where there are some, and else those of the file.  There is such a
command line, with one flag for each allocator in order, as long as no name of the file looks like
an option.  If the file is not loaded, whatever the flags say, the exit code is 1, the failure is
all that is printed, on the standard error output, and the tree is left as it is. -/
theorem settings_as_flags (host : Host) (colors : Bool) (span : Span) (tree : Tree)
    (file : Path) :
    (∀ settings, Settings.load host.complaint tree file = .ok settings →
      (∀ args args' r, RunAll.BenchRequests args r → r.settings = some file →
        RunAll.BenchRequests args' (r.spellOut settings) →
        run host colors span args tree = run host colors span args' tree) ∧
      ∀ w : Words, w.WellFormed → w.settings = some file.text →
        (w.allocators = [] → ∀ name ∈ settings.allocators, IsValue name) →
        ∃ exit, run host colors span w.args tree = .done exit ∧
          run host colors span (w.spellOut settings).args tree = .done exit) ∧
    ∀ failure, Settings.load host.complaint tree file = .error failure →
      (∃ fault, failure = .settingsUnusable file fault) ∧
      (∀ args r, RunAll.BenchRequests args r → r.settings = some file →
        run host colors span args tree = .done ⟨1, ⟨[], utf8 (failure.message ++ "\n")⟩, tree⟩) ∧
      ∀ w : Words, w.WellFormed → w.settings = some file.text →
        run host colors span w.args tree =
          .done ⟨1, ⟨[], utf8 (failure.message ++ "\n")⟩, tree⟩ := by
  have hsettings {w : Words} (hfile : w.settings = some file.text) :
      w.request.settings = some file := by
    simp [Words.request, hfile]
  refine ⟨fun settings hload => ⟨fun args args' r hargs hfile hargs' => ?_,
    fun w hw hfile hnames => ?_⟩, fun failure hload => ⟨settingsUnusable_of_load hload,
    fun args r hargs hfile => ?_, fun w hw hfile => ?_⟩⟩
  · rw [run_of_requests host colors span hargs, run_of_requests host colors span hargs']
    exact congrArg _ (perform_spellOut colors span hload hfile).symm
  · have hw' := w.wellFormed_spellOut hw hload hnames
    refine ⟨_, run_of_requests host colors span (w.benchRequests hw) tree, ?_⟩
    rw [run_of_requests host colors span ((w.spellOut settings).benchRequests hw'),
      w.request_spellOut hw hload, perform_spellOut colors span hload (hsettings hfile)]
  · rw [run_of_requests host colors span hargs, perform_of_load_error colors span hload hfile]
  · rw [run_of_requests host colors span (w.benchRequests hw),
      perform_of_load_error colors span hload (hsettings hfile)]

/-- A file that sets the highest thread count only, and one that is missing. -/
theorem settings_as_flags_cleanTree :
    let span : Span := ⟨⟨0, 0⟩, ⟨3, 0⟩⟩
    let host := Machine.plain.host
    let answer (args : List String) := run host false span args cleanTree
    let command := ["r/a", "a", "1"]
    (∃ exit, answer (command ++ ["--settings", "s"]) = .done exit ∧
      answer (command ++ ["--allocator", "libc", "--max-threads", "1"]) = .done exit) ∧
      answer ("--json" :: command ++ ["--settings", "s", "--max-threads", "2"]) =
        answer ("--json" :: command ++ ["--allocator", "libc", "--max-threads", "2"]) ∧
      answer (command ++ ["--settings", "x", "--allocator", "libc", "--max-threads", "1"]) =
        .done ⟨1, ⟨[],
          utf8 "Failed to read settings file x: No such file or directory (os error 2)\n"⟩,
          cleanTree⟩ := by
  intro span host answer command
  have hload : Settings.load host.complaint cleanTree ⟨"s"⟩ = .ok ⟨["libc"], 1⟩ := by
    decide +kernel
  have hmissing : Settings.load host.complaint cleanTree ⟨"x"⟩ =
      .error (.settingsUnusable ⟨"x"⟩ (.unreadable (.system .notFound))) := by decide +kernel
  obtain ⟨hargs, hwords⟩ := (settings_as_flags host false span cleanTree ⟨"s"⟩).1 _ hload
  refine ⟨?_, ?_, ?_⟩
  · exact hwords ⟨"r/a", "a", "1", some "s", [], none⟩
      ⟨by decide, by decide, by decide, by decide, by decide, by decide⟩ rfl (by decide)
  · exact hargs _ _ ⟨⟨"r/a"⟩, "a", 1, some ⟨"s"⟩, [], some 2, true⟩
      ⟨⟨command, [("json", ""), ("settings", "s"), ("max-threads", "2")]⟩, by decide +kernel,
        by decide +kernel⟩ rfl
      ⟨⟨command, [("json", ""), ("allocator", "libc"), ("max-threads", "2")]⟩, by decide +kernel,
        by decide +kernel⟩
  · exact ((settings_as_flags host false span cleanTree ⟨"x"⟩).2 _ hmissing).2.2
      ⟨"r/a", "a", "1", some "x", ["libc"], some "1"⟩
      ⟨by decide, by decide, by decide, by decide, by decide, by decide⟩ rfl

end RunBench

end BenchSweep.CommandLine
