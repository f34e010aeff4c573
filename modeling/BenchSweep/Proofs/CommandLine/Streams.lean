import BenchSweep.Proofs.CommandLine.Status

/-!
# A report as JSON

`runbench` is run twice on the same tree, once with the flag `--json` in addition.

* `Grammar.Ask`, `Grammar.scanFrom_cons` : what an argument asks for, whatever was matched before.
* `Grammar.take` : one part is matched in addition.
* `Matches.WithFlag` : arguments with a flag in addition match the same otherwise
  (`Grammar.scan_cons_flag`, `Grammar.scanFrom_insert_flag`).
* `RunBench.json_moves_output` : the flag changes neither the exit code nor the tree, and it only
  moves what is printed.
-/

namespace BenchSweep.CommandLine

/-! ## What arguments ask for -/

theorem bind_eq_ok {ε α β : Type} {x : Except ε α} {f : α → Except ε β} {b : β}
    (h : x.bind f = .ok b) : ∃ a, x = .ok a ∧ f a = .ok b := by
  cases x with
  | error e => cases h
  | ok a => exact ⟨a, rfl, h⟩

namespace Grammar

/-- A part of what is matched. -/
inductive Part
  | operand (value : String)
  | option (name : String) (use : Use) (value : String)
  /-- The name of an option whose value is the next argument. -/
  | name (name : String) (use : Use)

/-- What an argument asks for. -/
inductive Ask
  /-- That all arguments behind it are operands. -/
  | terminate
  | take (part : Part)
  | stop (stop : Stop)

/-- What an argument asks for, behind an option that waits for its value if there is one
`pending`. -/
def ask (g : Grammar) (pending : Option (String × Use)) (arg : String) : Ask :=
  match pending, Shape.ofArg arg with
  | some (name, use), .value => .take (.option name use arg)
  | some _, _ => .stop .misuse
  | none, .terminator => .terminate
  | none, .value => .take (.operand arg)
  | none, .short 'h' => .stop .help
  | none, .short 'V' => .stop .version
  | none, .short _ => .stop .misuse
  | none, .long "help" none => .stop .help
  | none, .long "version" none => .stop .version
  | none, .long name attached =>
    match g.options.lookup name, attached with
    | none, _ => .stop .misuse
    | some .flag, none => .take (.option name .flag "")
    | some .flag, some _ => .stop .misuse
    | some use, some value => .take (.option name use value)
    | some use, none => .take (.name name use)

/-- Match a part in addition, with the option that waits for its value then. -/
def take (g : Grammar) (m : Matches) : Part → Except Stop (Matches × Option (String × Use))
  | .operand value => (g.addOperand m value).map fun m => (m, none)
  | .option name use value => (addOption m name use value).map fun m => (m, none)
  | .name name use => .ok (m, some (name, use))

/-- Do what an argument asks for, and go on with the others. -/
def follow (g : Grammar) (m : Matches) (rest : List String) : Ask → Except Stop Matches
  | .terminate => (rest.foldlM g.addOperand m).bind g.finish
  | .take part => (g.take m part).bind fun (m, pending) => g.scanFrom m pending rest
  | .stop stop => .error stop

theorem map_bind_none (g : Grammar) (rest : List String) (added : Except Stop Matches) :
    ((added.map fun m => (m, none)).bind fun (m, pending) => g.scanFrom m pending rest) =
      added.bind fun m => g.scanFrom m none rest := by
  cases added <;> rfl

/-- An argument asks for something that does not depend on what was matched before. -/
theorem scanFrom_cons (g : Grammar) (m : Matches) (pending : Option (String × Use)) (arg : String)
    (rest : List String) :
    g.scanFrom m pending (arg :: rest) = g.follow m rest (g.ask pending arg) := by
  fun_cases ask g pending arg
  all_goals rw [scanFrom.eq_def]
  all_goals simp only [*, follow, take, map_bind_none]
  -- what is left is the name of an option that waits for its value
  rfl

end Grammar

/-! ## A flag in addition -/

namespace Matches

/-- The same was matched, and a flag in addition. -/
structure WithFlag (flag : String) (m m' : Matches) : Prop where
  operands : m'.operands = m.operands
  options : m'.options.filter (·.1 != flag) = m.options
  has : m'.has flag = true

variable {flag name : String} {m m' m₁ : Matches} {use : Use} {value : String}

theorem has_append (m : Matches) (name other value : String) :
    (Matches.mk m.operands (m.options ++ [(other, value)])).has name =
      (m.has name || other == name) := by
  simp [has]

theorem has_eq_false_iff : m.has flag = false ↔ m.options.filter (·.1 != flag) = m.options := by
  rw [List.filter_eq_self, has, List.any_eq_false]
  simp

/-- Other options are matched as before. -/
theorem WithFlag.values_eq (h : WithFlag flag m m') (hname : name ≠ flag) :
    m'.values name = m.values name := by
  rw [values, values, ← h.options, List.filter_filter]
  congr 2
  funext row
  by_cases hrow : row.1 = name
  · simp [hrow, hname]
  · simp [hrow]

theorem WithFlag.has_eq (h : WithFlag flag m m') (hname : name ≠ flag) :
    m'.has name = m.has name := by
  rw [Matches.has, Matches.has, ← h.options, List.any_filter]
  congr 1
  funext row
  by_cases hrow : row.1 = name
  · simp [hrow, hname]
  · simp [hrow]

end Matches

namespace Grammar

variable {g : Grammar} {flag name : String} {m m' m₁ : Matches} {use : Use} {value : String}

/-- What is matched grows by the option. -/
theorem addOption_ok (h : addOption m name use value = .ok m₁) :
    m₁ = { m with options := m.options ++ [(name, value)] } := by
  unfold addOption at h
  cases use with
  | flag =>
      dsimp only at h
      split at h <;> cases h
      rfl
  | single kind =>
      dsimp only at h
      split at h <;> cases h
      rfl
  | repeated kind =>
      dsimp only at h
      split at h <;> cases h
      rfl

theorem addOperand_ok (h : g.addOperand m value = .ok m₁) :
    m₁ = { m with operands := m.operands ++ [value] } := by
  unfold addOperand at h
  split at h
  · split at h <;> cases h
    rfl
  · cases h

/-- An operand is one whatever options there are. -/
theorem addOperand_withFlag (hm : m.WithFlag flag m') (h : g.addOperand m value = .ok m₁) :
    ∃ m₁', g.addOperand m' value = .ok m₁' ∧ m₁.WithFlag flag m₁' := by
  obtain rfl := addOperand_ok h
  refine ⟨{ m' with operands := m'.operands ++ [value] }, ?_, ?_⟩
  · unfold addOperand at h ⊢
    rw [hm.operands]
    cases hkind : g.operands[m.operands.length]? with
    | none => simp [hkind] at h
    | some kind =>
        cases hadmits : kind.admits value with
        | false => simp [hkind, hadmits] at h
        | true => simp [hadmits]
  · exact ⟨congrArg (· ++ [value]) hm.operands, hm.options, hm.has⟩

/-- Another option may be used as often as before. -/
theorem addOption_withFlag (hm : m.WithFlag flag m') (h : addOption m name use value = .ok m₁)
    (hflag : m₁.has flag = false) :
    ∃ m₁', addOption m' name use value = .ok m₁' ∧ m₁.WithFlag flag m₁' := by
  obtain rfl := addOption_ok h
  have hname : name ≠ flag := by
    rintro rfl
    simp [Matches.has_append] at hflag
  refine ⟨{ m' with options := m'.options ++ [(name, value)] }, ?_, ?_⟩
  · unfold addOption at h ⊢
    rw [hm.has_eq hname]
    cases use with
    | flag => cases hhas : m.has name <;> simp_all
    | single kind => cases hhas : m.has name <;> cases hadmits : kind.admits value <;> simp_all
    | repeated kind => cases hadmits : kind.admits value <;> simp_all
  · refine ⟨hm.operands, ?_, ?_⟩
    · rw [List.filter_append, hm.options]
      simp [hname]
    · rw [Matches.has_append, hm.has]
      rfl

/-- Operands are taken whatever options there are. -/
theorem addOperands_withFlag {rest : List String} (hm : m.WithFlag flag m')
    (h : rest.foldlM g.addOperand m = .ok m₁) :
    ∃ m₁', rest.foldlM g.addOperand m' = .ok m₁' ∧ m₁.WithFlag flag m₁' := by
  induction rest generalizing m m' with
  | nil =>
      cases h
      exact ⟨m', rfl, hm⟩
  | cons arg rest ih =>
      rw [List.foldlM_cons] at h ⊢
      obtain ⟨m₂, harg, hrest⟩ := bind_eq_ok h
      obtain ⟨m₂', harg', hm₂⟩ := addOperand_withFlag hm harg
      rw [harg']
      exact ih hm₂ hrest

theorem finish_eq_ok_iff :
    g.finish m = .ok m₁ ↔ m.operands.length = g.operands.length ∧ m₁ = m := by
  unfold finish
  split <;> simp_all [eq_comm]

theorem addOperands_ok {rest : List String} (h : rest.foldlM g.addOperand m = .ok m₁) :
    m₁ = { m with operands := m.operands ++ rest } := by
  induction rest generalizing m with
  | nil =>
      cases h
      rw [List.append_nil]
  | cons arg rest ih =>
      rw [List.foldlM_cons] at h
      obtain ⟨m₂, harg, hrest⟩ := bind_eq_ok h
      rw [ih hrest, addOperand_ok harg, List.append_assoc]
      rfl

theorem take_eq_ok_iff {part : Part} {pending : Option (String × Use)} :
    g.take m part = .ok (m₁, pending) ↔
      match part with
      | .operand value => g.addOperand m value = .ok m₁ ∧ pending = none
      | .option name use value => addOption m name use value = .ok m₁ ∧ pending = none
      | .name name use => m₁ = m ∧ pending = some (name, use) := by
  cases part with
  | operand value => cases h : g.addOperand m value <;> simp [take, h, Except.map, eq_comm]
  | option name use value =>
      cases h : addOption m name use value <;> simp [take, h, Except.map, eq_comm]
  | name name use => simp [take, eq_comm]

/-- Options that were given stay given. -/
theorem has_of_take {part : Part} {pending : Option (String × Use)}
    (h : g.take m part = .ok (m₁, pending)) (hhas : m.has flag = true) : m₁.has flag = true := by
  cases part with
  | operand value =>
      rw [addOperand_ok (take_eq_ok_iff.1 h).1]
      exact hhas
  | option name use value =>
      rw [addOption_ok (take_eq_ok_iff.1 h).1, Matches.has_append, hhas]
      rfl
  | name name use =>
      rw [(take_eq_ok_iff.1 h).1]
      exact hhas

/-- Any part may be matched as before. -/
theorem take_withFlag {part : Part} {pending : Option (String × Use)} (hm : m.WithFlag flag m')
    (h : g.take m part = .ok (m₁, pending)) (hflag : m₁.has flag = false) :
    ∃ m₁', g.take m' part = .ok (m₁', pending) ∧ m₁.WithFlag flag m₁' := by
  cases part with
  | operand value =>
      obtain ⟨hadd, hpending⟩ := take_eq_ok_iff.1 h
      obtain ⟨m₁', hadd', hm₁⟩ := addOperand_withFlag hm hadd
      exact ⟨m₁', take_eq_ok_iff.2 ⟨hadd', hpending⟩, hm₁⟩
  | option name use value =>
      obtain ⟨hadd, hpending⟩ := take_eq_ok_iff.1 h
      obtain ⟨m₁', hadd', hm₁⟩ := addOption_withFlag hm hadd hflag
      exact ⟨m₁', take_eq_ok_iff.2 ⟨hadd', hpending⟩, hm₁⟩
  | name name use =>
      obtain ⟨rfl, hpending⟩ := take_eq_ok_iff.1 h
      exact ⟨m', take_eq_ok_iff.2 ⟨rfl, hpending⟩, hm⟩

theorem has_of_scanFrom {pending : Option (String × Use)} {args : List String}
    (h : g.scanFrom m pending args = .ok m₁) (hhas : m.has flag = true) : m₁.has flag = true := by
  induction args generalizing m pending with
  | nil =>
      rw [scanFrom] at h
      split at h
      · cases h
      · rw [(finish_eq_ok_iff.1 h).2, hhas]
  | cons arg rest ih =>
      rw [scanFrom_cons] at h
      cases hask : g.ask pending arg with
      | terminate =>
          rw [hask] at h
          obtain ⟨m₂, hrest, hfinish⟩ := bind_eq_ok h
          rw [(finish_eq_ok_iff.1 hfinish).2, addOperands_ok hrest]
          exact hhas
      | take part =>
          rw [hask] at h
          obtain ⟨⟨m₂, pending⟩, htake, hrest⟩ := bind_eq_ok h
          exact ih hrest (has_of_take htake hhas)
      | stop =>
          rw [hask] at h
          cases h

theorem not_has_of_scanFrom {pending : Option (String × Use)} {args : List String}
    (h : g.scanFrom m pending args = .ok m₁) (hflag : m₁.has flag = false) : m.has flag = false :=
  Bool.eq_false_iff.2 fun hhas => Bool.eq_false_iff.1 hflag (has_of_scanFrom h hhas)

/-- Arguments without a flag match the same behind that flag. -/
theorem scanFrom_withFlag {pending : Option (String × Use)} {args : List String}
    (hm : m.WithFlag flag m') (h : g.scanFrom m pending args = .ok m₁)
    (hflag : m₁.has flag = false) :
    ∃ m₁', g.scanFrom m' pending args = .ok m₁' ∧ m₁.WithFlag flag m₁' := by
  induction args generalizing m m' pending with
  | nil =>
      rw [scanFrom] at h ⊢
      split at h
      · cases h
      · next hpending =>
          obtain ⟨hlength, rfl⟩ := finish_eq_ok_iff.1 h
          rw [if_neg hpending]
          exact ⟨m', finish_eq_ok_iff.2 ⟨hm.operands ▸ hlength, rfl⟩, hm⟩
  | cons arg rest ih =>
      rw [scanFrom_cons] at h ⊢
      cases hask : g.ask pending arg with
      | terminate =>
          rw [hask] at h
          obtain ⟨m₂, hrest, hfinish⟩ := bind_eq_ok h
          obtain ⟨m₂', hrest', hm₂⟩ := addOperands_withFlag hm hrest
          obtain ⟨hlength, rfl⟩ := finish_eq_ok_iff.1 hfinish
          refine ⟨m₂', ?_, hm₂⟩
          rw [follow, hrest']
          exact finish_eq_ok_iff.2 ⟨hm₂.operands ▸ hlength, rfl⟩
      | take part =>
          rw [hask] at h
          obtain ⟨⟨m₂, pending⟩, htake, hrest⟩ := bind_eq_ok h
          obtain ⟨m₂', htake', hm₂⟩ := take_withFlag hm htake (not_has_of_scanFrom hrest hflag)
          rw [follow, htake']
          exact ih hm₂ hrest
      | stop =>
          rw [hask] at h
          cases h

/-- An argument that gives a flag, unless an option waits for its value. -/
def Gives (g : Grammar) (arg flag : String) : Prop :=
  ∀ pending, g.ask pending arg =
    if pending.isSome then .stop .misuse else .take (.option flag .flag "")

/-- A flag may be given in addition in front of the other arguments. -/
theorem scan_cons_flag {args : List String} {arg : String} (harg : g.Gives arg flag)
    (h : g.scan args = .ok m) (hflag : m.has flag = false) :
    ∃ m', g.scan (arg :: args) = .ok m' ∧ m.WithFlag flag m' := by
  have hgiven : Matches.none.WithFlag flag ⟨[], [(flag, "")]⟩ := by
    refine ⟨rfl, by simp [Matches.none], by simp [Matches.has]⟩
  obtain ⟨m', hscan, hm⟩ := scanFrom_withFlag hgiven h hflag
  refine ⟨m', ?_, hm⟩
  rw [scan, scanFrom_cons, harg]
  exact hscan

/-- Wherever a flag is given in addition, the same is matched otherwise.  The induction is on the
arguments in front of the flag, which are matched in the same way both times. -/
theorem scanFrom_insert_flag {pending : Option (String × Use)} {front rest : List String}
    {arg : String} (harg : g.Gives arg flag) (h : g.scanFrom m pending (front ++ rest) = .ok m₁)
    (hflag : m₁.has flag = false) (h' : g.scanFrom m pending (front ++ arg :: rest) = .ok m') :
    m₁.WithFlag flag m' := by
  induction front generalizing m pending with
  | nil =>
      rw [List.nil_append, scanFrom_cons, harg] at h'
      cases pending with
      | some waiting => cases h'
      | none =>
          obtain ⟨⟨m₂, pending⟩, htake, hrest⟩ := bind_eq_ok h'
          obtain ⟨hadd, rfl⟩ := take_eq_ok_iff.1 htake
          have hnot : m.has flag = false := not_has_of_scanFrom h hflag
          have hm₂ : m.WithFlag flag m₂ := by
            rw [addOption_ok hadd]
            refine ⟨rfl, ?_, by simp [Matches.has_append]⟩
            rw [List.filter_append, Matches.has_eq_false_iff.1 hnot]
            simp
          obtain ⟨m₃, hscan, hm₃⟩ := scanFrom_withFlag hm₂ h hflag
          cases hscan.symm.trans hrest
          exact hm₃
  | cons first front ih =>
      rw [List.cons_append, scanFrom_cons] at h h'
      cases hask : g.ask pending first with
      | terminate =>
          -- there is one operand too many
          rw [hask] at h h'
          obtain ⟨m₂, hrest, hfinish⟩ := bind_eq_ok h
          obtain ⟨m₃, hrest', hfinish'⟩ := bind_eq_ok h'
          have hlength := (finish_eq_ok_iff.1 hfinish).1
          have hlength' := (finish_eq_ok_iff.1 hfinish').1
          rw [addOperands_ok hrest] at hlength
          rw [addOperands_ok hrest'] at hlength'
          simp only [List.length_append, List.length_cons] at hlength hlength'
          omega
      | take part =>
          rw [hask] at h h'
          obtain ⟨⟨m₂, pending⟩, htake, hrest⟩ := bind_eq_ok h
          obtain ⟨⟨m₃, pending'⟩, htake', hrest'⟩ := bind_eq_ok h'
          cases htake.symm.trans htake'
          exact ih hrest hrest'
      | stop =>
          rw [hask] at h
          cases h

end Grammar

namespace RunBench

/-! ## The flag of `runbench` -/

theorem gives_json : grammar.Gives "--json" "json" := by
  intro pending
  cases pending <;> rfl

/-- The flag changes nothing else in a request. -/
theorem ofMatches_withFlag {m m' : Matches} (h : m.WithFlag "json" m') :
    Request.ofMatches m' = { Request.ofMatches m with json := true } := by
  simp only [Request.ofMatches, Matches.operand, Matches.count?, Matches.value?, h.operands,
    h.values_eq (show "settings" ≠ "json" by decide),
    h.values_eq (show "allocator" ≠ "json" by decide),
    h.values_eq (show "max-threads" ≠ "json" by decide), h.has]

variable {args front rest : List String} {r r' : Request}

/-- The flag may be given in front of arguments without it. -/
theorem benchRequests_cons_json (h : RunAll.BenchRequests args r) (hjson : r.json = false) :
    RunAll.BenchRequests ("--json" :: args) { r with json := true } := by
  obtain ⟨m, hscan, rfl⟩ := h
  obtain ⟨m', hscan', hm⟩ := Grammar.scan_cons_flag gives_json hscan hjson
  exact ⟨m', hscan', ofMatches_withFlag hm⟩

/-- Wherever the flag is given, the request is the same otherwise. -/
theorem request_insert_json (h : RunAll.BenchRequests (front ++ rest) r) (hjson : r.json = false)
    (h' : RunAll.BenchRequests (front ++ "--json" :: rest) r') : r' = { r with json := true } := by
  obtain ⟨m, hscan, rfl⟩ := h
  obtain ⟨m', hscan', rfl⟩ := h'
  exact ofMatches_withFlag (Grammar.scanFrom_insert_flag gives_json hscan hjson hscan')

/-- The answer to arguments that make a request. -/
theorem run_of_requests (host : Host) (colors : Bool) (span : Span)
    (h : RunAll.BenchRequests args r) (tree : Tree) :
    run host colors span args tree = .done (perform host colors span r tree) := by
  obtain ⟨m, hscan, rfl⟩ := h
  rw [run, hscan]

/-! ## What is printed -/

/-- Progress that goes to the standard error output is the same as else goes to the standard
output. -/
theorem progressOutput_err (colors : Bool) (s : Sweep) (progress : List Progress) :
    (progressOutput colors .err s progress).stdout = [] ∧
      (progressOutput colors .err s progress).stderr =
        (progressOutput colors .out s progress).stdout := by
  rw [progressOutput, progressOutput]
  constructor
  · rw [Output.stdout_append, Output.stdout_line_err, Output.stdout_concat]
    induction progress with
    | nil => rfl
    | cons p rest ih => cases hline : p.line? colors <;> simpa [hline] using ih
  · simp only [Output.stderr_append, Output.stderr_line_err, Output.stderr_concat,
      Output.stdout_append, Output.stdout_line_out, Output.stdout_concat]
    induction progress with
    | nil => rfl
    | cons p rest ih => cases hline : p.line? colors <;> simpa [hline] using ih

/-- Does the sweep of a request go through? -/
def Completes (r : Request) (host : Host) (tree : Tree) (settings : Settings) (tally : Tally) :
    Prop :=
  r.loadSettings host tree = .ok settings ∧
    ((r.sweep settings).runConfigured (Runner.processes host) tree ()).verdict = .ok tally

/-- What is printed with the flag, and what is printed without it. -/
theorem perform_json (host : Host) (colors : Bool) (span span' : Span) (r : Request)
    (hjson : r.json = false) (tree : Tree) :
    let plain := perform host colors span r tree
    let flagged := perform host colors span' { r with json := true } tree
    flagged.code = plain.code ∧ flagged.tree = plain.tree ∧
      (∀ settings tally, Completes r host tree settings tally →
        flagged.output.stdout = utf8 (Report.ofTally (r.sweep settings) tally span').json ∧
        plain.output.stdout = flagged.output.stderr ++
          utf8 ((Report.ofTally (r.sweep settings) tally span).summary colors ++ "\n") ∧
        plain.output.stderr = []) ∧
      ((∀ settings tally, ¬ Completes r host tree settings tally) →
        flagged.output.stdout = [] ∧
        flagged.output.stderr = plain.output.stdout ++ plain.output.stderr) := by
  have hload : ({ r with json := true } : Request).loadSettings host tree =
      r.loadSettings host tree := rfl
  dsimp only
  rw [perform, perform, hload]
  cases hsettings : r.loadSettings host tree with
  | error failure =>
      refine ⟨rfl, rfl, fun settings tally h => ?_, fun _ => ⟨rfl, rfl⟩⟩
      cases hsettings.symm.trans h.1
  | ok settings =>
      have hsweep : ({ r with json := true } : Request).sweep settings = r.sweep settings := rfl
      have hout : r.progressStream = .out := by simp [Request.progressStream, hjson]
      have herr : ({ r with json := true } : Request).progressStream = .err := rfl
      dsimp only
      rw [hsweep, hout, herr]
      generalize hran : (r.sweep settings).runConfigured (Runner.processes host) tree () = ran
      obtain ⟨hshown, hmoved⟩ := progressOutput_err colors (r.sweep settings) ran.progress
      have hquiet := stderr_progressOutput colors (r.sweep settings) ran.progress
      have hcompletes {other : Settings} {tally : Tally} (h : Completes r host tree other tally) :
          other = settings ∧ ran.verdict = .ok tally := by
        obtain rfl := Except.ok.inj (hsettings.symm.trans h.1)
        exact ⟨rfl, hran ▸ h.2⟩
      cases hverdict : ran.verdict with
      | error failure =>
          refine ⟨rfl, rfl, fun settings' tally h => ?_, fun _ => ⟨?_, ?_⟩⟩
          · cases hverdict.symm.trans (hcompletes h).2
          · rw [Output.stdout_append, hshown, Output.stdout_line_err]
            rfl
          · rw [Output.stderr_append, Output.stdout_append, Output.stderr_append, hmoved, hquiet,
              Output.stderr_line_err, Output.stdout_line_err]
            simp
      | ok tally =>
          refine ⟨rfl, rfl, fun settings' tally' h => ?_,
            fun h => absurd ⟨hsettings, hran ▸ hverdict⟩ (h settings tally)⟩
          obtain ⟨rfl, hother⟩ := hcompletes h
          cases hverdict.symm.trans hother
          dsimp only [reportOutput]
          rw [hjson]
          refine ⟨?_, ?_, ?_⟩
          · rw [Output.stdout_append, hshown]
            simp [Output.text]
          · rw [Output.stdout_append, Output.stderr_append, hmoved]
            simp [Output.text, Output.line]
          · rw [Output.stderr_append, hquiet]
            simp [Output.text, Output.line]

/-! ## Both runs -/

/-- Digits are no line ends. -/
theorem newline_not_mem_toDigits (n : Nat) : '\n' ∉ Nat.toDigits 10 n := by
  intro h
  have hdigit := Nat.isDigit_of_mem_toDigits (by decide) (by decide) h
  simp at hdigit

/-- The summary of a benchmark whose name is on one line is one line. -/
theorem newline_not_mem_summary (colors : Bool) (report : Report)
    (h : '\n' ∉ report.benchmark.toList) : '\n' ∉ (report.summary colors).toList := by
  have helapsed : '\n' ∉ report.elapsed.repr.toList := by
    cases report.elapsed with
    | ofNat n => simpa [Int.repr, Nat.repr] using newline_not_mem_toDigits n
    | negSucc n => simpa [Int.repr, Nat.repr] using newline_not_mem_toDigits (n + 1)
  have hnumber (n : Nat) : '\n' ∉ (Text.decimalText n).toList := by
    rw [Text.decimalText, String.toList_ofList]
    exact newline_not_mem_toDigits n
  have hcodes (style : Style) : '\n' ∉ style.codes.toList := by cases style <;> decide
  have hplain (text : String) (htext : '\n' ∉ text.toList) (style : Style) :
      '\n' ∉ (style.paint colors text).toList := by
    unfold Style.paint
    split
    · simp [htext, hcodes]
    · exact htext
  rw [Report.summary]
  apply hplain
  simp [h, hnumber, helapsed]

/-- The flag `--json` only moves what `runbench` prints.  It may be given in front of any arguments
that are accepted without it, and wherever else it is accepted, the answer is the same but for the
streams: the same exit code and the same tree.  If the sweep goes through, the standard output is
the report as JSON, and what was printed there without the flag, up to the summary at its end, is on
the standard error output.  If not, the standard output is empty, and everything that was printed
without the flag is on the standard error output. -/
theorem json_moves_output (host : Host) (colors : Bool) (span span' : Span) {args : List String}
    {r : Request} (h : RunAll.BenchRequests args r) (hjson : r.json = false) (tree : Tree) :
    (∃ r', RunAll.BenchRequests ("--json" :: args) r') ∧
      ∀ front rest r', args = front ++ rest →
        RunAll.BenchRequests (front ++ "--json" :: rest) r' →
        ∃ plain flagged : Exit,
          run host colors span args tree = .done plain ∧
          run host colors span' (front ++ "--json" :: rest) tree = .done flagged ∧
          flagged.code = plain.code ∧ flagged.tree = plain.tree ∧
          (∀ settings tally, Completes r host tree settings tally →
            let report := Report.ofTally (r.sweep settings) tally
            flagged.output.stdout = utf8 (report span').json ∧
            plain.output.stdout =
              flagged.output.stderr ++ utf8 ((report span).summary colors ++ "\n") ∧
            plain.output.stderr = [] ∧
            ('\n' ∉ r.benchmark.toList → '\n' ∉ ((report span).summary colors).toList)) ∧
          ((∀ settings tally, ¬ Completes r host tree settings tally) →
            flagged.output.stdout = [] ∧
            flagged.output.stderr = plain.output.stdout ++ plain.output.stderr) := by
  refine ⟨⟨_, benchRequests_cons_json h hjson⟩, ?_⟩
  rintro front rest r' rfl h'
  obtain rfl := request_insert_json h hjson h'
  obtain ⟨hcode, htree, hdone, hfailed⟩ := perform_json host colors span span' r hjson tree
  refine ⟨_, _, run_of_requests host colors span h tree, run_of_requests host colors span' h' tree,
    hcode, htree, fun settings tally hcompletes => ?_, hfailed⟩
  obtain ⟨hout, hplain, herr⟩ := hdone settings tally hcompletes
  exact ⟨hout, hplain, herr,
    newline_not_mem_summary colors (Report.ofTally (r.sweep settings) tally span)⟩

/-- A sweep that goes through, with the flag between its operands. -/
theorem json_moves_output_between :
    let args := ["r/a", "a", "1", "--settings", "s"]
    let r : Request := ⟨⟨"r/a"⟩, "a", 1, some ⟨"s"⟩, [], none, false⟩
    let span : Span := ⟨⟨0, 0⟩, ⟨3, 0⟩⟩
    let host := Machine.plain.host
    RunAll.BenchRequests args r ∧ r.json = false ∧
      RunAll.BenchRequests ["r/a", "--json", "a", "1", "--settings", "s"]
        { r with json := true } ∧
      ∃ (plain flagged : Exit) (tally : Tally),
        run host false span args cleanTree = .done plain ∧
        run host false span ["r/a", "--json", "a", "1", "--settings", "s"] cleanTree =
          .done flagged ∧
        flagged.code = plain.code ∧ flagged.tree = plain.tree ∧
        flagged.output.stdout = utf8 (Report.ofTally cleanSweep tally span).json ∧
        plain.output.stdout = flagged.output.stderr ++
          utf8 ((Report.ofTally cleanSweep tally span).summary false ++ "\n") ∧
        plain.output.stderr = [] := by
  intro args r span host
  have h : RunAll.BenchRequests args r :=
    ⟨⟨["r/a", "a", "1"], [("settings", "s")]⟩, by decide +kernel, by decide +kernel⟩
  have h' : RunAll.BenchRequests ["r/a", "--json", "a", "1", "--settings", "s"]
      { r with json := true } :=
    ⟨⟨["r/a", "a", "1"], [("json", ""), ("settings", "s")]⟩, by decide +kernel,
      by decide +kernel⟩
  have hload : Settings.load host.complaint cleanTree ⟨"s"⟩ = .ok ⟨["libc"], 1⟩ := by
    decide +kernel
  obtain ⟨logs, progress, hran⟩ := ran_cleanTree
  have hcompletes : Completes r host cleanTree ⟨["libc"], 1⟩ ⟨logs, 0⟩ :=
    ⟨congrArg (Except.map _) hload, congrArg (·.verdict) hran⟩
  obtain ⟨plain, flagged, hplain, hflagged, hcode, htree, hdone, -⟩ :=
    (json_moves_output host false span span h rfl cleanTree).2 ["r/a"] _ _ rfl h'
  obtain ⟨hstdout, hmoved, hstderr, -⟩ := hdone _ _ hcompletes
  exact ⟨h, rfl, h', plain, flagged, ⟨logs, 0⟩, hplain, hflagged, hcode, htree, hstdout, hmoved,
    hstderr⟩

end RunBench

end BenchSweep.CommandLine
