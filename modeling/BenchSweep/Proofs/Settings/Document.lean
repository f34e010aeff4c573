import BenchSweep.Proofs.Files.Resolve
import BenchSweep.Proofs.Settings.Lines
import BenchSweep.Settings

/-!
# Settings that were written

A settings file is written line by line, and then loaded.

* `Settings.document?_line` : what a line does to the keys found so far, from which
  `Settings.read_written` says what all the lines do.
* `Settings.foldlM_put_eq_some_iff` : what the entries come to.
* `Settings.parse_sheet`, `Settings.parse_otherwise` : settings are read back, and other keys are
  refused.
* `Settings.bounds_of_load` : what holds of all settings that are loaded.
* `Settings.load_written` : what is written to a file is loaded from it, within the bounds.
-/

namespace BenchSweep.Settings

open Token

/-! ## Keys -/

/-- Set the key of an entry, which may not be set yet, to its value, which has to be within the
bound. -/
def Draft.put (d : Draft) : Entry → Option Draft
  | .allocators names =>
    if d.allocators.isSome then none else some { d with allocators := some names }
  | .maxThreads n =>
    if d.maxThreads.isSome ∨ threadBound < n then none else some { d with maxThreads := some n }

variable {draft : Draft} {rest : List Token}

/-- Quoted names between commas are added to a list, up to the bracket that closes it. -/
theorem document?_names (found names : List String) (draft : Draft) (rest : List Token) :
    document? (.list found false) draft
        ((names.map fun name => Token.quoted false name.toList).intersperse .comma ++
          .closeBracket :: rest) =
      document? .finish { draft with allocators := some (found ++ names) } rest := by
  induction names generalizing found with
  | nil => simp [document?]
  | cons name names ih =>
      cases names with
      | nil => simp [document?]
      | cons next names =>
          have hothers := ih (found ++ [name])
          rw [List.map_cons] at hothers
          simp only [List.map_cons, List.intersperse_cons_cons, List.cons_append, document?,
            String.ofList_toList]
          rw [hothers, List.append_assoc]
          rfl

/-- A number is read back from its digits, unless it is too high. -/
theorem threads?_decimal (n : Nat) :
    threads? (Text.decimal n) = if n ≤ threadBound then some n else none := by
  simp [threads?, integer?_decimal, Option.filter_some]

/-- What an entry does to the keys found so far. -/
theorem document?_entry (draft : Draft) (e : Entry) (rest : List Token) :
    document? .entry draft ([.word e.key.toList, .equals] ++ e.tokens ++ rest) =
      (draft.put e).bind fun d => document? .finish d rest := by
  cases e with
  | allocators names =>
    have hkey : Key.ofToken? (.word "allocators".toList) = some .allocators := by decide +kernel
    simp only [Entry.key, Entry.tokens, List.cons_append, List.nil_append, document?, hkey,
      Draft.put]
    split
    · rfl
    · rw [List.append_assoc]
      exact document?_names [] names draft rest
  | maxThreads n =>
    have hkey : Key.ofToken? (.word "max_threads".toList) = some .maxThreads := by decide +kernel
    simp only [Entry.key, Entry.tokens, List.cons_append, List.nil_append, document?, hkey,
      Draft.put, threads?_decimal]
    by_cases hset : draft.maxThreads.isSome
    · simp [hset]
    · rcases Nat.lt_or_ge threadBound n with hlt | hle
      · simp [hset, hlt, Nat.not_le.2 hlt]
      · simp [hset, hle, Nat.not_lt.2 hle]

/-- An entry has to be followed by the end of its line. -/
theorem document?_finish (draft : Draft) (hrest : ∀ token ∈ rest.head?, token = .lineEnd) :
    document? .finish draft rest = document? .entry draft rest := by
  cases rest with
  | nil => rfl
  | cons token rest =>
      obtain rfl := hrest token rfl
      simp [document?]

/-- A line does what its entry does, if it has one. -/
theorem document?_line (draft : Draft) (l : Line)
    (hrest : ∀ token ∈ rest.head?, token = .lineEnd) :
    document? .entry draft (l.tokens ++ rest) =
      (l.entry.toList.foldlM Draft.put draft).bind fun d => document? .entry d rest := by
  cases hentry : l.entry with
  | none => simp [Line.tokens, hentry]
  | some e =>
      have hread := document?_entry draft e rest
      simp only [document?_finish _ hrest] at hread
      simpa [Line.tokens, hentry] using hread

/-! ## Files -/

/-- Lines, each of them ended, in front of a rest. -/
def written (lines : List Line) (rest : List Char) : List Char :=
  lines.flatMap (fun l => l.text ++ ['\n']) ++ rest

/-- Lines joined by line ends are lines that are ended each, but for the last one. -/
theorem intercalate_eq_written (lines : List Line) (rest : List Char) :
    ['\n'].intercalate (lines.map Line.text ++ [rest]) = written lines rest := by
  induction lines with
  | nil => simp [written]
  | cons l lines ih =>
      have hne : lines.map Line.text ++ [rest] ≠ [] := by simp
      obtain ⟨next, others, hothers⟩ := List.exists_cons_of_ne_nil hne
      rw [List.map_cons, List.cons_append, hothers, List.intercalate_cons_cons, ← hothers, ih]
      simp [written]

/-- The entries of lines. -/
def entries (lines : List Line) : List Entry := lines.filterMap Line.entry

theorem entries_cons (l : Line) (lines : List Line) :
    entries (l :: lines) = l.entry.toList ++ entries lines := by
  cases hentry : l.entry <;> simp [entries, hentry]

/-- Lines are read one after the other, and then the rest. -/
theorem read_written (draft : Draft) (lines : List Line) (rest : List Char) :
    (scan? (written lines rest)).bind (document? .entry draft) =
      ((entries lines).foldlM Draft.put draft).bind fun d =>
        (scan? rest).bind (document? .entry d) := by
  induction lines generalizing draft with
  | nil => rfl
  | cons l lines ih =>
      have hscan : scan? (written (l :: lines) rest) =
          (scan? (written lines rest)).map (l.tokens ++ .lineEnd :: ·) := by
        simpa [written] using l.scan?_text_lineEnd (written lines rest)
      have hline (tokens : List Token) : document? .entry draft (l.tokens ++ .lineEnd :: tokens) =
          (l.entry.toList.foldlM Draft.put draft).bind fun d => document? .entry d tokens := by
        rw [document?_line draft l (by simp)]
        simp only [document?]
      rw [hscan, entries_cons, List.foldlM_append]
      cases hput : l.entry.toList.foldlM Draft.put draft with
      | none =>
        cases scan? (written lines rest) <;> simp [hline, hput]
      | some d =>
        have hothers := ih d
        cases htokens : scan? (written lines rest) with
        | none => simpa [htokens] using hothers
        | some tokens => simpa [htokens, hline, hput] using hothers

/-- The allocators that an entry names. -/
def Entry.names? : Entry → Option (List String)
  | allocators names => some names
  | maxThreads _ => none

/-- The thread count that an entry gives. -/
def Entry.count? : Entry → Option Nat
  | allocators _ => none
  | maxThreads n => some n

/-- Each key may be set once, and the thread count has to be within the bound. -/
theorem foldlM_put_eq_some_iff (es : List Entry) (draft : Draft) {d : Draft} :
    es.foldlM Draft.put draft = some d ↔
      let lists := draft.allocators.toList ++ es.filterMap Entry.names?
      let counts := draft.maxThreads.toList ++ es.filterMap Entry.count?
      lists.length ≤ 1 ∧ counts.length ≤ 1 ∧
        (∀ n ∈ es.filterMap Entry.count?, n ≤ threadBound) ∧
        d = ⟨lists.head?, counts.head?⟩ := by
  induction es generalizing draft with
  | nil =>
      obtain ⟨allocators, maxThreads⟩ := draft
      cases allocators <;> cases maxThreads <;> simp [eq_comm]
  | cons e es ih =>
      obtain ⟨allocators, maxThreads⟩ := draft
      cases e with
      | allocators names =>
          cases allocators with
          | some found => simp [Draft.put, Entry.names?, List.filterMap_cons]
          | none =>
              have hothers := ih ⟨some names, maxThreads⟩
              simpa [Draft.put, Entry.names?, Entry.count?, List.filterMap_cons,
                List.findSome?_cons] using hothers
      | maxThreads n =>
          cases maxThreads with
          | some found => simp [Draft.put, Entry.count?, List.filterMap_cons]
          | none =>
              rcases Nat.lt_or_ge threadBound n with hlt | hle
              · simp [Draft.put, Entry.count?, hlt, Nat.not_le.2 hlt, List.filterMap_cons]
              · have hothers := ih ⟨allocators, some n⟩
                simpa [Draft.put, Entry.names?, Entry.count?, hle, Nat.not_lt.2 hle,
                  List.filterMap_cons, List.findSome?_cons] using hothers

/-! ## Byte order marks -/

/-- Does a text not start with a byte order mark? -/
def Unmarked (s : List Char) : Prop := s.head? ≠ some '\uFEFF'

theorem unmarked_nil : Unmarked [] := nofun

/-- There is no byte order mark in front of two texts if there is none in front of either. -/
theorem Unmarked.append {s t : List Char} (hs : Unmarked s) (ht : Unmarked t) :
    Unmarked (s ++ t) := by
  cases s with
  | nil => exact ht
  | cons c s => exact hs

/-- Spaces are no byte order mark. -/
theorem unmarked_spaces {s : List Char} (h : Spaces s) : Unmarked s := by
  cases s with
  | nil => exact unmarked_nil
  | cons c s =>
      rcases isSpace_iff.1 (h c List.mem_cons_self) with rfl | rfl <;> simp [Unmarked]

/-- No line starts with a byte order mark. -/
theorem Line.unmarked_text (l : Line) : Unmarked l.text := by
  refine (unmarked_spaces l.spaces_indent).append (Unmarked.append ?_ ?_)
  · cases l.entry with
    | none => exact unmarked_nil
    | some e => cases e <;> simp [Unmarked, Entry.text, Entry.key]
  · refine (unmarked_spaces l.trail.isSpaces).append ?_
    cases l.trail.remark <;> simp [Unmarked]

/-- Nor do lines, in front of a rest that does not. -/
theorem unmarked_written (lines : List Line) {rest : List Char} (h : Unmarked rest) :
    Unmarked (written lines rest) := by
  cases lines with
  | nil => exact h
  | cons l lines =>
      rw [written, List.flatMap_cons, List.append_assoc, List.append_assoc]
      exact l.unmarked_text.append (by simp [Unmarked])

/-- Nothing is dropped of such a text. -/
theorem dropByteOrderMark_eq {s : List Char} (h : Unmarked s) : dropByteOrderMark s = s := by
  unfold dropByteOrderMark
  split
  · exact absurd rfl h
  · rfl

/-- A text without a byte order mark is parsed by its tokens. -/
theorem parse_of_unmarked {s : List Char} (complaint : String → String) (h : Unmarked s) :
    parse complaint (String.ofList s) =
      match (scan? s).bind (document? .entry ⟨none, none⟩) with
      | none => .error (.malformed (complaint (String.ofList s)))
      | some d => check
          ⟨d.allocators.getD standard.allocators, d.maxThreads.getD standard.maxThreads⟩ := by
  rw [parse, ofText?, String.toList_ofList, dropByteOrderMark_eq h]
  cases scan? s with
  | none => rfl
  | some tokens => cases hd : document? .entry ⟨none, none⟩ tokens <;> simp [hd]

/-! ## Other keys -/

/-- How a key of a name is written: bare, between two quotation marks, where characters may be
escaped, or between two apostrophes. -/
inductive Spells (name : List Char) : List Char → Prop
  | bare (hne : name ≠ []) (h : ∀ c ∈ name, isWordChar c = true ∧ c ≠ '+') : Spells name name
  | quoted {s : List Char} (h : basic? (s ++ ['"']) = some (name, [])) :
      Spells name ('"' :: (s ++ ['"']))
  | literal (h : ∀ c ∈ name, isPlain c = true ∧ c ≠ '\'') : Spells name ('\'' :: (name ++ ['\'']))

/-- Does a text start with a key of another name, or with the header of a table? -/
inductive StartsOtherwise : List Char → Prop
  | key {indent name spelled gap rest : List Char} {sign : Char} (hindent : Spaces indent)
      (h : Spells name spelled) (hallocators : name ≠ "allocators".toList)
      (hthreads : name ≠ "max_threads".toList) (hgap : Spaces gap)
      (hsign : sign = '=' ∨ sign = '.') :
      StartsOtherwise (indent ++ (spelled ++ (gap ++ sign :: rest)))
  | table {indent rest : List Char} (hindent : Spaces indent) :
      StartsOtherwise (indent ++ '[' :: rest)

/-- No entry starts with any other token. -/
theorem document?_of_other {token : Token} (hend : token ≠ .lineEnd)
    (hkey : Key.ofToken? token = none) (draft : Draft) (others : List Token) :
    document? .entry draft (token :: others) = none := by
  rw [document?.eq_def]
  split <;> simp_all

/-- What follows the key does not go on with it. -/
theorem head?_behind_key {gap : List Char} {sign : Char} (rest : List Char) (hgap : Spaces gap)
    (hsign : sign = '=' ∨ sign = '.') :
    ∀ c ∈ (gap ++ sign :: rest).head?, isWordChar c = false ∧ c ≠ '"' ∧ c ≠ '\'' := by
  intro c hc
  cases gap with
  | nil =>
      obtain rfl : sign = c := by simpa using hc
      rcases hsign with rfl | rfl <;> decide
  | cons d gap =>
      obtain rfl : d = c := by simpa using hc
      rcases isSpace_iff.1 (hgap d List.mem_cons_self) with rfl | rfl <;> decide

/-- A bare word without a plus sign is the name of a key. -/
theorem keyName?_of_word {name : List Char} (h : '+' ∉ name) :
    Token.keyName? (.word name) = some name := by
  simp [Token.keyName?, h]

/-- The name of neither key is none of them. -/
theorem Key.ofToken?_of_name {token : Token} {name : List Char} (h : token.keyName? = some name)
    (hallocators : name ≠ "allocators".toList) (hthreads : name ≠ "max_threads".toList) :
    Key.ofToken? token = none := by
  rw [Key.ofToken?, h, Option.bind_some, if_neg hallocators, if_neg hthreads]

/-- The first token is none that an entry starts with. -/
theorem StartsOtherwise.exists_token {text : List Char} (h : StartsOtherwise text) :
    ∃ token, token ≠ .lineEnd ∧ Key.ofToken? token = none ∧
      ∀ tokens, scan? text = some tokens → ∃ others, tokens = token :: others := by
  cases h with
  | table hindent =>
      exact ⟨.openBracket, nofun, rfl, fun tokens hscan =>
        eq_cons_of_scan? hindent (by decide) (by decide) rfl hscan⟩
  | @key indent name spelled gap rest sign hindent hspelled hallocators hthreads hgap hsign =>
      have hbehind := head?_behind_key rest hgap hsign
      generalize gap ++ sign :: rest = others at hbehind ⊢
      cases hspelled with
      | bare hne hname =>
          have hplus : '+' ∉ name := fun hmem => (hname '+' hmem).2 rfl
          refine ⟨.word name, nofun,
            Key.ofToken?_of_name (keyName?_of_word hplus) hallocators hthreads, fun tokens => ?_⟩
          have hnext := next?_word (fun c hc => (hname c hc).1) hne fun c hc => (hbehind c hc).1
          obtain ⟨c, name, rfl⟩ := List.exists_cons_of_ne_nil hne
          have hc := (hname c List.mem_cons_self).1
          have hsign : c ≠ '#' := by
            rintro rfl
            exact absurd hc (by decide)
          exact eq_cons_of_scan? hindent (not_isSpace_of_isWordChar hc) hsign hnext
      | quoted hname =>
          refine ⟨.quoted false name, nofun,
            Key.ofToken?_of_name rfl hallocators hthreads, fun tokens hscan => ?_⟩
          have hnext := next?_basic hname fun c hc => (hbehind c hc).2.1
          rw [List.cons_append, List.append_assoc] at hscan
          exact eq_cons_of_scan? hindent (by decide) (by decide) hnext hscan
      | literal hname =>
          refine ⟨.quoted false name, nofun,
            Key.ofToken?_of_name rfl hallocators hthreads, fun tokens hscan => ?_⟩
          have hnext := next?_literal hname fun c hc => (hbehind c hc).2.2
          rw [List.cons_append, List.append_assoc] at hscan
          exact eq_cons_of_scan? hindent (by decide) (by decide) hnext hscan

/-- A text that starts with another key is no settings document. -/
theorem StartsOtherwise.read_eq_none {text : List Char} (h : StartsOtherwise text)
    (draft : Draft) : (scan? text).bind (document? .entry draft) = none := by
  obtain ⟨token, hend, hkey, hfirst⟩ := h.exists_token
  cases hscan : scan? text with
  | none => rfl
  | some tokens =>
      obtain ⟨others, rfl⟩ := hfirst tokens hscan
      exact document?_of_other hend hkey draft others

theorem StartsOtherwise.unmarked {text : List Char} (h : StartsOtherwise text) :
    Unmarked text := by
  cases h with
  | table hindent => exact (unmarked_spaces hindent).append (by simp [Unmarked])
  | key hindent hspelled _ _ hgap hsign =>
      refine (unmarked_spaces hindent).append ?_
      cases hspelled with
      | bare hne hname =>
          obtain ⟨c, name, rfl⟩ := List.exists_cons_of_ne_nil hne
          intro hmark
          obtain rfl : c = '\uFEFF' := by simpa using hmark
          exact absurd (hname _ List.mem_cons_self).1 (by decide)
      | quoted => simp [Unmarked]
      | literal => simp [Unmarked]

/-! ## Parsing -/

/-- The text of lines: line ends stand between them. -/
def sheet (lines : List Line) : List Char := ['\n'].intercalate (lines.map Line.text)

/-- A sheet ends with the text of its last line. -/
theorem sheet_concat (lines : List Line) (last : Line) :
    sheet (lines ++ [last]) = written lines last.text := by
  rw [sheet, List.map_append, List.map_singleton, intercalate_eq_written]

/-- No sheet starts with a byte order mark. -/
theorem unmarked_sheet (lines : List Line) : Unmarked (sheet lines) := by
  rcases List.eq_nil_or_concat lines with rfl | ⟨lines, last, rfl⟩
  · exact unmarked_nil
  · rw [List.concat_eq_append, sheet_concat]
    exact unmarked_written lines last.unmarked_text

/-- The lines of a sheet are read entry by entry. -/
theorem read_sheet (draft : Draft) (lines : List Line) :
    (scan? (sheet lines)).bind (document? .entry draft) =
      (entries lines).foldlM Draft.put draft := by
  rcases List.eq_nil_or_concat lines with rfl | ⟨lines, last, rfl⟩
  · have hscan : scan? (sheet []) = some [] := by
      rw [sheet, scan?]
      rfl
    simp [hscan, entries, document?]
  · have hlast (d : Draft) : (scan? last.text).bind (document? .entry d) =
        last.entry.toList.foldlM Draft.put d := by
      have hline := document?_line d last (show ∀ token ∈ ([] : List Token).head?, token = .lineEnd
        by simp)
      rw [List.append_nil] at hline
      rw [last.scan?_text, Option.bind_some, hline]
      simp [document?]
    have hentries : entries (lines ++ [last]) = entries lines ++ last.entry.toList := by
      cases hentry : last.entry <;> simp [entries, hentry]
    rw [List.concat_eq_append, sheet_concat, read_written, hentries, List.foldlM_append]
    simp only [hlast]
    rfl

/-- The lists of allocators that lines give. -/
def lists (lines : List Line) : List (List String) := (entries lines).filterMap Entry.names?

/-- The thread counts that lines give. -/
def counts (lines : List Line) : List Nat := (entries lines).filterMap Entry.count?

/-- What is written is read back, with the missing keys filled in, if no key stands twice and no
thread count is too high. -/
theorem parse_sheet {complaint : String → String} {lines : List Line}
    (hlists : (lists lines).length ≤ 1) (hcounts : (counts lines).length ≤ 1)
    (hbound : ∀ n ∈ counts lines, n ≤ threadBound) :
    parse complaint (String.ofList (sheet lines)) =
      check ⟨(lists lines).head?.getD ["libc"], (counts lines).head?.getD 8⟩ := by
  have hread : (scan? (sheet lines)).bind (document? .entry ⟨none, none⟩) =
      some ⟨(lists lines).head?, (counts lines).head?⟩ := by
    rw [read_sheet, foldlM_put_eq_some_iff]
    exact ⟨hlists, hcounts, hbound, rfl⟩
  rw [parse_of_unmarked complaint (unmarked_sheet lines), hread]
  rfl

/-- A key that stands twice, or a thread count that is too high, spoils the text. -/
theorem parse_sheet_malformed {complaint : String → String} {lines : List Line}
    (h : 1 < (lists lines).length ∨ 1 < (counts lines).length ∨
      ∃ n ∈ counts lines, threadBound < n) :
    parse complaint (String.ofList (sheet lines)) =
      .error (.malformed (complaint (String.ofList (sheet lines)))) := by
  have hread : (scan? (sheet lines)).bind (document? .entry ⟨none, none⟩) = none := by
    rw [read_sheet, Option.eq_none_iff_forall_ne_some]
    intro d hd
    obtain ⟨hlists, hcounts, hbound, -⟩ := (foldlM_put_eq_some_iff _ _).1 hd
    rcases h with h | h | ⟨n, hn, h⟩
    · exact Nat.not_lt.2 hlists h
    · exact Nat.not_lt.2 hcounts h
    · exact Nat.not_lt.2 (hbound n hn) h
  rw [parse_of_unmarked complaint (unmarked_sheet lines), hread]

/-- Another key or a table behind some lines spoils the text. -/
theorem parse_otherwise {complaint : String → String} (lines : List Line) {rest : List Char}
    (h : StartsOtherwise rest) :
    let text := String.ofList (['\n'].intercalate (lines.map Line.text ++ [rest]))
    parse complaint text = .error (.malformed (complaint text)) := by
  intro text
  unfold text
  rw [intercalate_eq_written, parse_of_unmarked complaint (unmarked_written lines h.unmarked),
    read_written]
  simp only [h.read_eq_none]
  cases (entries lines).foldlM Draft.put ⟨none, none⟩ <;> rfl

/-! ## Loading -/

/-- Is the text that of the file at a path? -/
def HoldsText (t : Tree) (path : Path) (text : List Char) : Prop :=
  ∃ stamp mode content, t.Resolves path (.file stamp mode content) ∧
    utf8 (String.ofList text) = content.data

variable {complaint : String → String} {t : Tree} {path : Path} {text : List Char}

/-- What is loaded from a file is what its text is parsed to. -/
theorem load_of_holdsText (h : HoldsText t path text) :
    load complaint t path =
      (parse complaint (String.ofList text)).mapError (.settingsUnusable path) := by
  obtain ⟨stamp, mode, content, hresolves, htext⟩ := h
  have hread : t.readText path = .ok (String.ofList text) := by
    rw [Tree.readText_of_resolves hresolves, ofUtf8?_eq_some_iff.2 htext]
  rw [load, hread]
  dsimp only
  cases parse complaint (String.ofList text) <;> rfl

/-- A thread count that is read is within the bound. -/
theorem threads?_le {word : List Char} {n : Nat} (h : threads? word = some n) :
    n ≤ threadBound := by
  rw [threads?, Option.filter_eq_some_iff] at h
  simpa using h.2

/-- No thread count that is read is too high. -/
theorem maxThreads_le_of_document? {place : Place} {draft d : Draft} {tokens : List Token}
    (h : document? place draft tokens = some d)
    (hdraft : ∀ n ∈ draft.maxThreads, n ≤ threadBound) : ∀ n ∈ d.maxThreads, n ≤ threadBound := by
  fun_induction document? place draft tokens <;> grind [threads?_le, Option.bind_eq_some_iff]

/-- Settings that are loaded are of use, and their thread count is a number of 32 bits. -/
theorem bounds_of_load {settings : Settings} (h : load complaint t path = .ok settings) :
    settings.allocators ≠ [] ∧ 1 ≤ settings.maxThreads ∧ settings.maxThreads ≤ threadBound := by
  unfold load at h
  split at h
  · cases h
  · split at h
    · cases h
    · next text _ s hparse =>
        cases h
        unfold parse at hparse
        split at hparse
        · cases hparse
        · next s hs =>
            obtain ⟨tokens, -, hread⟩ := Option.bind_eq_some_iff.1 hs
            obtain ⟨d, hd, rfl⟩ := Option.map_eq_some_iff.1 hread
            have hbound := maxThreads_le_of_document? hd nofun
            obtain ⟨hallocators, hthreads, rfl⟩ := check_eq_ok_iff.1 hparse
            refine ⟨hallocators, hthreads, ?_⟩
            cases hn : d.maxThreads with
            | none =>
                show 8 ≤ threadBound
                decide
            | some n => exact hbound n hn

/-- What is in a list of at most one element is the first one. -/
theorem head?_eq_of_mem {α : Type} {a : α} {l : List α} (h : l.length ≤ 1) (ha : a ∈ l) :
    l.head? = some a := by
  match l, h, ha with
  | [b], _, ha => exact congrArg some (List.mem_singleton.1 ha).symm

/-- Settings that are written to a file are loaded from it.  They may stand in any order, among
blank lines and comments, and each of them may be missing.  They are loaded if there is an allocator
and if the highest thread count is a positive number of 32 bits, and else refused: without an
allocator whatever the thread count is, unless that is too high.  They are refused as well if a key
stands twice, and if any other key or a table stands behind such lines, whatever follows it.  All
settings that are loaded from any file name an allocator and allow a thread. -/
theorem load_written (complaint : String → String) (t : Tree) (path : Path) :
    let refused (text : List Char) : Except Failure Settings :=
      .error (.settingsUnusable path (.malformed (complaint (String.ofList text))))
    (∀ lines, HoldsText t path (sheet lines) →
      (lists lines).length ≤ 1 → (counts lines).length ≤ 1 →
      let allocators := (lists lines).head?.getD ["libc"]
      let threads := (counts lines).head?.getD 8
      (allocators ≠ [] → 1 ≤ threads → threads < UInt32.size →
        load complaint t path = .ok ⟨allocators, threads⟩) ∧
      (allocators = [] → threads < UInt32.size →
        ∃ fault, load complaint t path = .error (.settingsUnusable path fault) ∧
          fault.detail = "'allocators' must not be empty") ∧
      (allocators ≠ [] → threads = 0 →
        ∃ fault, load complaint t path = .error (.settingsUnusable path fault) ∧
          fault.detail = "'max_threads' must be at least 1") ∧
      (UInt32.size ≤ threads → load complaint t path = refused (sheet lines))) ∧
    (∀ lines, HoldsText t path (sheet lines) →
      1 < (lists lines).length ∨ 1 < (counts lines).length →
      load complaint t path = refused (sheet lines)) ∧
    (∀ (lines : List Line) (rest : List Char), StartsOtherwise rest →
      let text := ['\n'].intercalate (lines.map Line.text ++ [rest])
      HoldsText t path text → load complaint t path = refused text) ∧
    ∀ settings, load complaint t path = .ok settings →
      settings.allocators ≠ [] ∧ 1 ≤ settings.maxThreads := by
  intro refused
  refine ⟨fun lines htext hlists hcounts => ?_, fun lines htext h => ?_,
    fun lines rest hrest => ?_, fun settings h => ?_⟩
  · intro allocators threads
    rw [load_of_holdsText htext]
    have hread (hlt : threads < UInt32.size) : parse complaint (String.ofList (sheet lines)) =
        check ⟨allocators, threads⟩ := by
      refine parse_sheet hlists hcounts fun n hn => ?_
      have hthreads : threads = n := congrArg (·.getD 8) (head?_eq_of_mem hcounts hn)
      exact Nat.le_sub_one_of_lt (hthreads ▸ hlt)
    refine ⟨fun hallocators hpos hlt => ?_, fun hallocators hlt => ⟨.noAllocators, ?_, rfl⟩,
      fun hallocators hzero => ⟨.noThreads, ?_, rfl⟩, fun hle => ?_⟩
    · have husable : check ⟨allocators, threads⟩ = .ok ⟨allocators, threads⟩ :=
        check_eq_ok_iff.2 ⟨hallocators, hpos, rfl⟩
      rw [hread hlt, husable]
      rfl
    · rw [hread hlt, check, if_pos hallocators]
      rfl
    · rw [hread (hzero ▸ by decide), check, if_neg hallocators, if_pos hzero]
      rfl
    · rw [parse_sheet_malformed (Or.inr (Or.inr ?_))]
      · rfl
      · cases hhead : (counts lines).head? with
        | none =>
            have hthreads : threads = 8 := congrArg (·.getD 8) hhead
            rw [hthreads] at hle
            exact absurd hle (by decide)
        | some n =>
            have hthreads : threads = n := congrArg (·.getD 8) hhead
            have hhigh : threadBound < n := Nat.sub_one_lt_of_le (by decide) (hthreads ▸ hle)
            exact ⟨n, List.mem_of_mem_head? hhead, hhigh⟩
  · rw [load_of_holdsText htext, parse_sheet_malformed (h.imp_right Or.inl)]
    rfl
  · intro text htext
    rw [load_of_holdsText htext, parse_otherwise lines hrest]
    rfl
  · obtain ⟨hallocators, hthreads, -⟩ := bounds_of_load h
    exact ⟨hallocators, hthreads⟩

/-- A working directory with a settings file. -/
def settingsTree (text : List Char) : Tree :=
  Tree.bare.set ["s", "bench", "tmp"] (.file 0 0o644 (.bytes (utf8 (String.ofList text))))

theorem holdsText_settingsTree (text : List Char) :
    HoldsText (settingsTree text) ⟨"s"⟩ text := by
  refine ⟨0, 0o644, .bytes (utf8 (String.ofList text)), Tree.stat?_eq_some_iff.1 ?_, rfl⟩
  rfl

/-- Both keys, with comments and a blank line. -/
def bothKeys : List Line :=
  [⟨['\t'], some (.allocators ["libc", "hård 2"]),
      ⟨[' '], some "in turn".toList, by decide, by simp [isPlain]⟩, by decide,
      by simp [Entry.IsPlain, IsSimple, isPlain]⟩,
    ⟨[], none, ⟨[], none, by decide, nofun⟩, by decide, nofun⟩,
    ⟨[], some (.maxThreads 16), ⟨[], some [], by decide, by simp⟩, by decide,
      by simp [Entry.IsPlain]⟩]

/-- The file with both keys is loaded; with the same keys once more it is not, nor with another
one. -/
theorem load_written_bothKeys :
    let complaint (text : String) := "cannot read " ++ text
    let file (text : List Char) := load complaint (settingsTree text) ⟨"s"⟩
    let refused (text : List Char) : Except Failure Settings :=
      .error (.settingsUnusable ⟨"s"⟩ (.malformed (complaint (String.ofList text))))
    let spoilt := ['\n'].intercalate (bothKeys.map Line.text ++ ["threads = 4".toList])
    String.ofList (sheet bothKeys) =
        "\tallocators = [\"libc\", \"hård 2\"] #in turn\n\nmax_threads = 16#" ∧
      file (sheet bothKeys) = .ok ⟨["libc", "hård 2"], 16⟩ ∧
      file (sheet (bothKeys ++ bothKeys)) = refused (sheet (bothKeys ++ bothKeys)) ∧
      file spoilt = refused spoilt := by
  intro complaint file refused spoilt
  refine ⟨by decide +kernel, ?_, ?_, ?_⟩
  · exact ((load_written complaint (settingsTree (sheet bothKeys)) ⟨"s"⟩).1 bothKeys
      (holdsText_settingsTree _) (by decide) (by decide)).1 (by decide) (by decide) (by decide)
  · exact (load_written complaint (settingsTree (sheet (bothKeys ++ bothKeys))) ⟨"s"⟩).2.1 _
      (holdsText_settingsTree _) (by decide)
  · refine (load_written complaint (settingsTree _) ⟨"s"⟩).2.2.1 bothKeys "threads = 4".toList ?_
      (holdsText_settingsTree _)
    have hkey : StartsOtherwise ([] ++ ("threads".toList ++ ([' '] ++ '=' :: " 4".toList))) :=
      .key (by decide) (.bare (by decide) (by simp [isWordChar])) (by decide +kernel)
        (by decide +kernel) (by decide) (Or.inl rfl)
    exact hkey

end BenchSweep.Settings
