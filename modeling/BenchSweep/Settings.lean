import BenchSweep.Files.Operations
import BenchSweep.Failure
import BenchSweep.Settings.Integer

/-!
# Settings

The allocators and the highest thread count of a sweep, and how they are read from
a settings file.  A settings file is a TOML document with the two keys `allocators`
and `max_threads`, both optional, and nothing else.

* `Settings.standard` : what holds where a file or a key is missing.
* `Settings.parse` : the settings in a text.
* `Settings.load` : the settings in a file.
-/

namespace BenchSweep

/-- The allocators to test and the highest thread count. -/
structure Settings where
  allocators : List String
  maxThreads : Nat
  deriving DecidableEq, Repr

namespace Settings

/-- The system's own allocator, on up to eight threads. -/
def standard : Settings := ⟨["libc"], 8⟩

/-! ## Documents -/

/-- The highest thread count that can be written. -/
def threadBound : Nat := UInt32.size - 1

/-- The keys found so far with their values. -/
structure Draft where
  allocators : Option (List String)
  maxThreads : Option Nat
  deriving DecidableEq, Repr

/-- The keys of settings. -/
inductive Key
  | allocators
  | maxThreads
  deriving DecidableEq, Repr

/-- The name of a key that a token is. -/
def Token.keyName? : Token → Option (List Char)
  | .word w => if w.contains '+' then none else some w
  | .quoted false s => some s
  | _ => none

/-- The key that a token is. -/
def Key.ofToken? (token : Token) : Option Key :=
  token.keyName?.bind fun name =>
    if name = "allocators".toList then some .allocators
    else if name = "max_threads".toList then some .maxThreads
    else none

/-- Where the reader stands: before an entry, in the list of allocators, or behind
an entry, whose line has to end. -/
inductive Place
  | entry
  | list (found : List String) (behindItem : Bool)
  | finish
  deriving DecidableEq, Repr

/-- The thread count that a bare word is. -/
def threads? (word : List Char) : Option Nat := (integer? word).filter (· ≤ threadBound)

/-- Read the tokens of a document. -/
def document? : Place → Draft → List Token → Option Draft
  | .entry, draft, [] => some draft
  | .finish, draft, [] => some draft
  | .list _ _, _, [] => none
  | .entry, draft, .lineEnd :: rest => document? .entry draft rest
  | .finish, draft, .lineEnd :: rest => document? .entry draft rest
  | .finish, _, _ :: _ => none
  | .entry, draft, key :: .equals :: value :: rest =>
    match Key.ofToken? key, value with
    | some .allocators, .openBracket =>
      if draft.allocators.isSome then none else document? (.list [] false) draft rest
    | some .maxThreads, .word w =>
      if draft.maxThreads.isSome then none
      else (threads? w).bind fun n => document? .finish { draft with maxThreads := some n } rest
    | _, _ => none
  | .entry, _, _ :: _ => none
  | .list found behind, draft, .lineEnd :: rest => document? (.list found behind) draft rest
  | .list found _, draft, .closeBracket :: rest =>
    document? .finish { draft with allocators := some found } rest
  | .list found true, draft, .comma :: rest => document? (.list found false) draft rest
  | .list found false, draft, .quoted _ s :: rest =>
    document? (.list (found ++ [String.ofList s]) true) draft rest
  | .list _ _, _, _ :: _ => none

/-- A text without the byte order mark it may start with. -/
def dropByteOrderMark : List Char → List Char
  | '\uFEFF' :: rest => rest
  | rest => rest

/-- The settings that a document gives, missing keys filled in. -/
def ofText? (text : String) : Option Settings :=
  (Token.scan? (dropByteOrderMark text.toList)).bind fun tokens =>
    (document? .entry ⟨none, none⟩ tokens).map fun draft =>
      ⟨draft.allocators.getD standard.allocators, draft.maxThreads.getD standard.maxThreads⟩

/-! ## Validity -/

/-- Settings are of use if they name an allocator and allow a thread. -/
def check (s : Settings) : Except SettingsFault Settings :=
  if s.allocators = [] then .error .noAllocators
  else if s.maxThreads = 0 then .error .noThreads
  else .ok s

/-- The settings in a text; `complaint` has the words for a text that is no document. -/
def parse (complaint : String → String) (text : String) : Except SettingsFault Settings :=
  match ofText? text with
  | none => .error (.malformed (complaint text))
  | some s => s.check

/-- The settings in a file. -/
def load (complaint : String → String) (t : Tree) (path : Path) : Except Failure Settings :=
  match t.readText path with
  | .error fault => .error (.settingsUnusable path (.unreadable fault))
  | .ok text =>
    match parse complaint text with
    | .error fault => .error (.settingsUnusable path fault)
    | .ok s => .ok s

/-- Settings of use pass, as they are. -/
theorem check_eq_ok_iff {s r : Settings} :
    s.check = .ok r ↔ s.allocators ≠ [] ∧ 0 < s.maxThreads ∧ r = s := by
  unfold check
  split
  · simp_all
  · split
    · simp_all
    · simp_all [Nat.pos_iff_ne_zero, eq_comm]

end Settings

end BenchSweep
