import BenchSweep.Proofs.Ini.Layout
import BenchSweep.Proofs.Ini.TimeLimit
import BenchSweep.Proofs.Ini.Writing
import BenchSweep.Proofs.Text.Words

/-!
# The arguments of a recipe

* `Ini.Sets` : a line that sets a key, and `Ini.Continues` : a line that goes on with a row of
  words.
* `Ini.IsWritten` : the lines of a recipe whose arguments stand in rows.
* `Recipe.parse_arguments` : from such lines, in any layout, the arguments are read back word by
  word, whatever characters they hold.  So every list of words is read from some text, and nothing
  else ever is.
-/

namespace BenchSweep.Ini

open Text

/-! ## Lines of a recipe -/

/-- Does the line set the key, in any letter case, to what stands behind the delimiter? -/
def Sets (key line value : List Char) : Prop :=
  ∃ written gap d, line = written ++ gap ++ d :: value ∧ written.map Char.toLower = key ∧
    (∀ c ∈ gap, isBlank c = true) ∧ (d = '=' ∨ d = ':')

/-- Does the line go on with a row of words?  Its first word must not look like a comment. -/
structure Continues (row : List (List Char)) (line : List Char) : Prop where
  indented : ∃ c, line.head? = some c ∧ isBlank c = true
  spaced : Spaced row line
  unmarked : ∃ word rest, row = word :: rest ∧ word.head? ≠ some '#' ∧ word.head? ≠ some ';'

/-- Do the lines write a recipe with the time limit, and with arguments in rows?  The first row
stands behind the key, and every other row that is not empty in a line of its own. -/
def IsWritten (n : Nat) (rows : List (List (List Char))) (ls : List (List Char)) : Prop :=
  ∃ limit limitValue args first more, Sets "maxtime".toList limit limitValue ∧
    Spaced [decimal n] limitValue ∧ Sets "args".toList args first ∧
    Spaced (rows.headD []) first ∧
    List.Forall₂ Continues (rows.tail.filter (!·.isEmpty)) more ∧
    (ls = "[DEFAULT]".toList :: limit :: args :: more ∨
      ls = "[DEFAULT]".toList :: args :: (more ++ [limit]))

/-- Lines as a text, each with an LF behind it. -/
def plain (ls : List (List Char)) : List Char := ls.flatMap (· ++ ['\n'])

variable {key line value written name text : List Char} {c : Char} {ls more : List (List Char)}
  {row : List (List Char)} {rows : List (List (List Char))} {sections : Sections}
  {entries : Entries} {cursor : Cursor} {last : Reading} {gaps : List Nat} {n : Nat}

/-! ## Lines that set a key -/

/-- A letter has no meaning in a sectioned text. -/
theorem isMeaning_of_isLower (h : c.toLower.isLower) : c.toNat < 0x80 ∧ isMeaning c = false := by
  have hascii : c.toNat < 0x80 := by
    unfold Char.toLower at h
    split at h
    · next hupper =>
        have hlast := hupper.2
        simp only [UInt32.le_iff_toNat_le] at hlast
        exact Nat.lt_of_le_of_lt hlast (by decide)
    · have hlast : c.val ≤ 'z'.val := of_decide_eq_true (Bool.and_eq_true_iff.1 h).2
      simp only [UInt32.le_iff_toNat_le] at hlast
      exact Nat.lt_of_le_of_lt hlast (by decide)
  have htable : ∀ n < 0x80, (Char.ofNat n).toLower.isLower → isMeaning (Char.ofNat n) = false := by
    decide +kernel
  exact ⟨hascii, by simpa using htable c.toNat hascii (by simpa using h)⟩

/-- What a key is written with: letters, of which none has a meaning. -/
theorem plain_of_map_toLower (hkey : ∀ c ∈ written.map Char.toLower, c.isLower) (hc : c ∈ written) :
    c.toNat < 0x80 ∧ isBlank c = false ∧ (c ≠ '=' ∧ c ≠ ':') ∧ c ≠ '[' ∧ c ≠ '#' ∧ c ≠ ';' := by
  obtain ⟨hascii, hmeaning⟩ := isMeaning_of_isLower (hkey _ (List.mem_map_of_mem hc))
  refine ⟨hascii, ?_⟩
  simpa [isMeaning, not_or, and_assoc] using hmeaning

theorem trim_setting {gap : List Char} {d : Char} (hword : IsWord written) (hd : d = '=' ∨ d = ':')
    (value : List Char) :
    trim (written ++ gap ++ d :: value) = written ++ gap ++ d :: trimEnd value := by
  have hdelimiter : IsTrimmed [d] := by
    apply trim_eq_self_iff.1
    rcases hd with rfl | rfl <;> decide
  have hfront : IsTrimmed (written ++ gap ++ [d]) :=
    hword.isTrimmed.append hword.1 hdelimiter (List.cons_ne_nil d [])
  simpa using hfront.trim_append (by simp) value

/-- The first delimiter stands behind what is written and the blanks. -/
theorem parts_setting {gap : List Char} {d : Char} (hwritten : ∀ c ∈ written, c ≠ '=' ∧ c ≠ ':')
    (hgap : ∀ c ∈ gap, isBlank c = true) (hd : d = '=' ∨ d = ':') (value : List Char) :
    Parts (written ++ gap ++ d :: value) (written ++ gap) value := by
  refine ⟨d, rfl, hd, fun c hc => ?_⟩
  rcases List.mem_append.1 hc with hc | hc
  · exact hwritten c hc
  · -- a delimiter is no blank
    constructor
    · rintro rfl
      exact absurd (hgap _ hc) (by decide)
    · rintro rfl
      exact absurd (hgap _ hc) (by decide)

/-- A line that sets a key is an entry with that key. -/
theorem Sets.parts (h : Sets key line value) (hne : key ≠ []) (hkey : ∀ c ∈ key, c.isLower) :
    isIndented line = false ∧ isIdle (trim line) = false ∧ (trim line).head? ≠ some '[' ∧
      ∃ left right, Parts (trim line) left right ∧ trim left ≠ [] ∧ keyOf left = key ∧
        trim right = trim value := by
  obtain ⟨written, gap, d, rfl, rfl, hgap, hd⟩ := h
  have hplain (c : Char) (hc : c ∈ written) := plain_of_map_toLower hkey hc
  obtain ⟨first, tail, hwritten⟩ : ∃ first tail, written = first :: tail :=
    List.exists_cons_of_ne_nil fun hnil => hne (by rw [hnil]; rfl)
  have hfirst := hplain first (by simp [hwritten])
  have hword : IsWord written := ⟨by simp [hwritten], fun c hc => (hplain c hc).2.1⟩
  have hhead : (written ++ gap ++ d :: trimEnd value).head? = some first := by
    rw [hwritten]
    rfl
  have hleft : trim (written ++ gap) = written := by
    rw [trim_append_right hgap, hword.isTrimmed.trim]
  rw [trim_setting hword hd, isIdle_eq_false_iff, hhead]
  refine ⟨?_, ⟨by simp, ?_, ?_⟩, ?_, written ++ gap, trimEnd value,
    parts_setting (fun c hc => (hplain c hc).2.2.1) hgap hd _, ?_, ?_, trim_trimEnd value⟩
  · rw [hwritten]
    exact hfirst.2.1
  · simpa using hfirst.2.2.2.2.1
  · simpa using hfirst.2.2.2.2.2
  · simpa using hfirst.2.2.2.1
  · rw [hleft]
    exact hword.1
  · rw [keyOf, hleft]
    exact lowercase_eq_map fun c hc => (hplain c hc).1

/-! ## Reading the lines -/

namespace Reading

/-- A line that sets a new key is read as an entry. -/
theorem step_of_sets (sections : Sections) (h : Sets key line value) (hne : key ≠ [])
    (hkey : ∀ c ∈ key, c.isLower) (hsection : cursor.section? = some name)
    (hnew : entries.get? key = none) :
    step ⟨sections.put name entries, cursor⟩ line =
      .ok ⟨sections.put name (entries.put key (trim value)), .behindEntry name key⟩ := by
  obtain ⟨hindented, hidle, hbracket, left, right, hparts, hleft, hkeyOf, hright⟩ :=
    h.parts hne hkey
  rw [step_entry_put hidle (Or.inl hindented) hbracket hsection, keyValue?_of_parts hparts,
    if_neg hleft, hkeyOf, hright]
  simp only [Except.bind, hnew]
  rfl

end Reading

/-- A line that goes on with words is no comment. -/
theorem Continues.goesOn (h : Continues row line) : GoesOn line := by
  obtain ⟨⟨c, hc, hblank⟩, hspaced, word, rest, rfl, hhash, hsemicolon⟩ := h
  refine ⟨by rw [isIndented, hc]; exact hblank, ?_⟩
  cases hspaced with
  | @cons gap _ _ behind hgap hword _ _ =>
      obtain ⟨d, tail, rfl⟩ := List.exists_cons_of_ne_nil hword.1
      have hhead : (trim (gap ++ (d :: tail) ++ behind)).head? = some d := by
        rw [List.append_assoc, trim_append_left hgap]
        exact head?_trim_of_head rfl (hword.2 d List.mem_cons_self)
      rw [isIdle_eq_false_iff, hhead]
      refine ⟨?_, hhash, hsemicolon⟩
      rintro hnil
      rw [hnil] at hhead
      cases hhead

/-- The words of a value are those of its lines. -/
theorem words_of_continues (h : List.Forall₂ Continues rows more) (value : List Char) :
    words (value ++ more.flatMap fun raw => '\n' :: trim raw) = words value ++ rows.flatten := by
  induction h generalizing value with
  | nil => simp
  | @cons row line rows more hline _ ih =>
      rw [List.flatMap_cons, List.cons_append, words_append_cons (by decide), ih, words_trim,
        hline.spaced.words_eq, List.flatten_cons]

theorem goesOn_of_continues (h : List.Forall₂ Continues rows more) : ∀ raw ∈ more, GoesOn raw := by
  induction h with
  | nil => simp
  | cons hline _ ih => exact List.forall_mem_cons.2 ⟨hline.goesOn, ih⟩

theorem headD_append_flatten (rows : List (List (List Char))) :
    rows.headD [] ++ (rows.tail.filter (!·.isEmpty)).flatten = rows.flatten := by
  cases rows with
  | nil => rfl
  | cons row rows => simp [List.flatten_filter_not_isEmpty]

/-- Do the entries hold the time limit and the arguments? -/
structure HoldsRecipe (entries : Entries) (n : Nat) (rows : List (List (List Char))) : Prop where
  limit : ∃ value, entries.get? "maxtime".toList = some value ∧ trim value = decimal n
  args : ∃ value, entries.get? "args".toList = some value ∧ words value = rows.flatten

/-- The lines of the arguments are read as one entry, whose words are those of the rows. -/
theorem exists_value_of_rows {args first : List Char} (hargs : Sets "args".toList args first)
    (hfirst : Spaced (rows.headD []) first)
    (hmore : List.Forall₂ Continues (rows.tail.filter (!·.isEmpty)) more) :
    ∃ value, words value = rows.flatten ∧ ∀ (entries : Entries) (cursor : Cursor),
      cursor.section? = some "DEFAULT".toList → entries.get? "args".toList = none →
      Reading.Reads ⟨Table.empty.put "DEFAULT".toList entries, cursor⟩ (args :: more)
        ⟨Table.empty.put "DEFAULT".toList (entries.put "args".toList value),
          .behindEntry "DEFAULT".toList "args".toList⟩ := by
  refine ⟨trim first ++ more.flatMap fun raw => '\n' :: trim raw, ?_, ?_⟩
  · rw [words_of_continues hmore, words_trim, hfirst.words_eq, headD_append_flatten]
  · intro entries cursor hsection hnew
    have hstep := Reading.step_of_sets Table.empty hargs (by decide) (List.all_eq_true.1 rfl)
      hsection hnew
    exact .cons hstep (Reading.reads_goingOn (goesOn_of_continues hmore) Table.empty entries _ _ _)

/-- The lines of a recipe are read to the end. -/
theorem IsWritten.reads (h : IsWritten n rows ls) :
    ∃ entries cursor, HoldsRecipe entries n rows ∧
      Reading.Reads .initial ls ⟨Table.empty.put "DEFAULT".toList entries, cursor⟩ := by
  obtain ⟨limit, limitValue, args, first, more, hlimit, hvalue, hargs, hfirst, hmore, hls⟩ := h
  obtain ⟨value, hwords, hreads⟩ := exists_value_of_rows hargs hfirst hmore
  have hheader : Reading.initial.step "[DEFAULT]".toList =
      .ok ⟨Table.empty.put "DEFAULT".toList Table.empty, .underHeader "DEFAULT".toList⟩ := rfl
  have hstep {entries : Entries} {cursor : Cursor}
      (hsection : cursor.section? = some "DEFAULT".toList)
      (hnew : entries.get? "maxtime".toList = none) :=
    Reading.step_of_sets Table.empty hlimit (by decide) (List.all_eq_true.1 rfl) hsection hnew
  have hlimitValue : trim (trim limitValue) = decimal n := by rw [trim_trim, hvalue.trim_eq]
  have hne : "args".toList ≠ "maxtime".toList := by decide
  rcases hls with rfl | rfl
  · refine ⟨(Table.empty.put "maxtime".toList (trim limitValue)).put "args".toList value, _,
      ⟨⟨_, ?_, hlimitValue⟩, ⟨value, Table.get?_put_self _ _ _, hwords⟩⟩,
      .cons hheader (.cons (hstep rfl (Table.get?_empty _)) (hreads _ _ rfl ?_))⟩
    · rw [Table.get?_put_ne _ _ hne, Table.get?_put_self]
    · rw [Table.get?_put_ne _ _ hne.symm, Table.get?_empty]
  · have hlast : (Table.empty.put "args".toList value).get? "maxtime".toList = none := by
      rw [Table.get?_put_ne _ _ hne, Table.get?_empty]
    have hentries := (hreads Table.empty (.underHeader "DEFAULT".toList) rfl
      (Table.get?_empty _)).append (.cons (hstep rfl hlast) (.nil _))
    refine ⟨(Table.empty.put "args".toList value).put "maxtime".toList (trim limitValue), _,
      ⟨⟨_, Table.get?_put_self _ _ _, hlimitValue⟩, ⟨value, ?_, hwords⟩⟩, .cons hheader hentries⟩
    rw [Table.get?_put_ne _ _ hne.symm, Table.get?_put_self]

/-! ## Texts -/

/-- Lines with others put in are read to the same end. -/
theorem Relined.reads {r : Reading} {ls' : List (List Char)} (h : Relined ls ls' gaps)
    (hreads : r.Reads ls last) : r.Reads ls' last := by
  intro number
  rcases h.steps r number number with ⟨other, hsteps, hsteps'⟩ | ⟨i, fault, hsteps, -⟩
  · rw [hreads number] at hsteps
    rw [hsteps', hsteps]
  · rw [hreads number] at hsteps
    cases hsteps

/-- Lines are those of their text, but for a CR at their end. -/
theorem exists_relined_plain (h : ∀ line ∈ ls, '\n' ∉ line) :
    ∃ gaps, Relined ls (lines (plain ls)) gaps := by
  induction ls with
  | nil => exact ⟨[0], .nil⟩
  | cons line ls ih =>
      obtain ⟨hline, hls⟩ := List.forall_mem_cons.1 h
      obtain ⟨gaps, hrest⟩ := ih hls
      have hcloses : Ending.lf.Closes line (plain ls) := ⟨hline, nofun⟩
      obtain ⟨raw, hlines, hraw⟩ := hcloses.lines_eq
      refine ⟨0 :: gaps, ?_⟩
      show Relined (line :: ls) (lines (line ++ Ending.lf.chars ++ plain ls)) (0 :: gaps)
      rw [hlines]
      exact .keep hraw hrest

/-- What lines are read to is read from their text in any layout. -/
theorem read_of_reads (hls : ∀ line ∈ ls, '\n' ∉ line) (hreads : Reading.Reads .initial ls last)
    (h : Relaid (plain ls) text gaps) : read text = .ok last.sections := by
  obtain ⟨gaps', hplain⟩ := exists_relined_plain hls
  rw [Reading.read_eq_ok_iff]
  exact ⟨last, h.relined.reads (hplain.reads hreads), rfl⟩

end BenchSweep.Ini

namespace BenchSweep.Recipe

open Ini Text

variable {path : Path} {text : String} {n : Nat} {rows : List (List (List Char))}
  {ls : List (List Char)} {gaps : List Nat}

/-- The lines of a recipe give it in any layout. -/
theorem parse_of_isWritten (path : Path) (hpos : 1 ≤ n) (hbound : n ≤ 2 ^ 64 - 1)
    (hls : ∀ line ∈ ls, '\n' ∉ line) (h : IsWritten n rows ls)
    (hrelaid : Relaid (plain ls) text.toList gaps) :
    parse path text = .ok ⟨n, rows.flatten.map String.ofList⟩ := by
  obtain ⟨entries, cursor, ⟨⟨value, hvalue, htrim⟩, args, hargs, hwords⟩, hreads⟩ := h.reads
  have hread := read_of_reads hls hreads hrelaid
  have hlimit : timeLimit? value = some n :=
    timeLimit?_eq_some_iff.2 ⟨htrim ▸ isNumeral_decimal n, hpos, hbound⟩
  have hentries : (Table.empty.put "DEFAULT".toList entries).get? sectionName = some entries :=
    Table.get?_put_self _ _ _
  have hvalue' : entries.get? timeLimitKey = some value := hvalue
  have hargs' : entries.get? extraArgsKey = some args := hargs
  simp only [parse, hread, ofSections, hentries, Option.getD_some, hvalue', hlimit, hargs', hwords]

/-- A recipe that is read has words for arguments. -/
theorem isWord_of_parse {recipe : Recipe} (h : parse path text = .ok recipe) :
    ∀ arg ∈ recipe.extraArgs, IsWord arg.toList := by
  simp only [parse, ofSections] at h
  split at h
  · cases h
  · split at h
    · cases h
    · split at h
      · cases h
      · cases h
        intro arg harg
        obtain ⟨word, hword, rfl⟩ := List.mem_map.1 harg
        rw [String.toList_ofList]
        exact isWord_of_mem_words hword

/-- Words can be written in a row behind the key. -/
theorem exists_isWritten (n : Nat) {row : List (List Char)} (h : ∀ word ∈ row, IsWord word) :
    ∃ ls, (∀ line ∈ ls, '\n' ∉ line) ∧ IsWritten n [row] ls := by
  let limit := "maxtime =".toList ++ ' ' :: decimal n
  let args := "args =".toList ++ row.flatMap (' ' :: ·)
  have hlf {word : List Char} (hword : ∀ c ∈ word, isBlank c = false) : '\n' ∉ word := by
    intro hmem
    exact absurd (hword _ hmem) (by decide)
  have hdecimal : IsWord (decimal n) := by
    refine ⟨?_, fun c hc => (isNumeral_decimal n).not_blank hc⟩
    simp [decimal]
  have hlimit : Sets "maxtime".toList limit (' ' :: decimal n) :=
    ⟨"maxtime".toList, [' '], '=', rfl, by decide, List.all_eq_true.1 rfl, Or.inl rfl⟩
  have hargs : Sets "args".toList args (row.flatMap (' ' :: ·)) :=
    ⟨"args".toList, [' '], '=', rfl, by decide, List.all_eq_true.1 rfl, Or.inl rfl⟩
  have hvalue : Spaced [decimal n] (' ' :: decimal n) := by
    simpa using spaced_flatMap (List.forall_mem_singleton.2 hdecimal)
  refine ⟨["[DEFAULT]".toList, limit, args], ?_, limit, _, args, _, [], hlimit, hvalue, hargs,
    spaced_flatMap h, .nil, Or.inl rfl⟩
  simp only [List.forall_mem_cons, List.not_mem_nil, false_imp_iff, implies_true, and_true]
  refine ⟨by decide, ?_, ?_⟩
  · rw [List.mem_append, List.mem_cons]
    rintro (hmem | heq | hmem)
    · exact absurd hmem (by decide)
    · exact absurd heq (by decide)
    · exact hlf hdecimal.2 hmem
  · rw [List.mem_append, List.mem_flatMap]
    rintro (hmem | ⟨word, hword, hmem⟩)
    · exact absurd hmem (by decide)
    · rcases List.mem_cons.1 hmem with heq | hmem
      · exact absurd heq (by decide)
      · exact hlf (h word hword).2 hmem

/-- From the lines of a recipe, in any layout, the time limit and the arguments are read back.  So
every list of words is read from some text, and every text that is read gives words. -/
theorem parse_arguments (path : Path) (n : Nat) (hpos : 1 ≤ n) (hbound : n ≤ 2 ^ 64 - 1) :
    (∀ rows ls gaps (text : String), IsWritten n rows ls → (∀ line ∈ ls, '\n' ∉ line) →
        Relaid (plain ls) text.toList gaps →
        parse path text = .ok ⟨n, rows.flatten.map String.ofList⟩) ∧
      (∀ args : List String, (∀ arg ∈ args, IsWord arg.toList) →
        ∃ text, parse path text = .ok ⟨n, args⟩) ∧
      ∀ text recipe, parse path text = .ok recipe →
        ∀ arg ∈ recipe.extraArgs, IsWord arg.toList := by
  refine ⟨fun rows ls gaps text hwritten hls hrelaid =>
    parse_of_isWritten path hpos hbound hls hwritten hrelaid, fun args hargs => ?_,
    fun text recipe hparse => isWord_of_parse hparse⟩
  have hwords : ∀ word ∈ args.map String.toList, IsWord word := by
    simpa using hargs
  obtain ⟨ls, hls, hwritten⟩ := exists_isWritten n hwords
  obtain ⟨gaps, hrelaid⟩ := exists_relaid_self (plain ls)
  have hself : Relaid (plain ls) (String.ofList (plain ls)).toList gaps := by
    rwa [String.toList_ofList]
  refine ⟨String.ofList (plain ls), ?_⟩
  rw [parse_of_isWritten path hpos hbound hls hwritten hself]
  simp

/-- Arguments that look like headers, entries and comments. -/
def lookalikes : List (List (List Char)) :=
  [["#1".toList, "a=b".toList], [], ["[DEFAULT]".toList, "k:".toList], ["--x".toList, ";".toList]]

/-- The lines with these arguments. -/
def lookalikeLines : List (List Char) :=
  ["[DEFAULT]".toList, "ArGs\t:#1 a=b".toList, "\t[DEFAULT]\tk:".toList, "  --x  ;".toList,
    "maxtime = 7".toList]

/-- A text of the lines, with others put in. -/
def lookalikeText : String :=
  "; one\n[DEFAULT]\r\nArGs\t:#1 a=b\n\n\t[DEFAULT]\tk:\n # two\n  --x  ; \nmaxtime = 7"

theorem parse_arguments_lookalikes :
    IsWritten 7 lookalikes lookalikeLines ∧
      Relaid (plain lookalikeLines) lookalikeText.toList [1, 0, 1, 1, 0, 0] ∧
      parse ⟨"config"⟩ lookalikeText =
        .ok ⟨7, ["#1", "a=b", "[DEFAULT]", "k:", "--x", ";"]⟩ := by
  have hwritten : IsWritten 7 lookalikes lookalikeLines := by
    refine ⟨"maxtime = 7".toList, " 7".toList, "ArGs\t:#1 a=b".toList, "#1 a=b".toList,
      ["\t[DEFAULT]\tk:".toList, "  --x  ;".toList],
      ⟨"maxtime".toList, [' '], '=', rfl, rfl, List.all_eq_true.1 rfl, Or.inl rfl⟩,
      spaced_iff.2 (by decide),
      ⟨"ArGs".toList, ['\t'], ':', rfl, rfl, List.all_eq_true.1 rfl, Or.inr rfl⟩,
      spaced_iff.2 (by decide), ?_, Or.inr rfl⟩
    refine .cons ⟨⟨'\t', by decide⟩, spaced_iff.2 (by decide), _, _, rfl, by decide⟩ ?_
    exact .cons ⟨⟨' ', by decide⟩, spaced_iff.2 (by decide), _, _, rfl, by decide⟩ .nil
  have hlines : plain lookalikeLines = "[DEFAULT]".toList ++ Ending.lf.chars ++
      ("ArGs\t:#1 a=b".toList ++ Ending.lf.chars ++
        ("\t[DEFAULT]\tk:".toList ++ Ending.lf.chars ++ ("  --x  ;".toList ++ Ending.lf.chars ++
          ("maxtime = 7".toList ++ Ending.lf.chars ++ [])))) := by
    decide
  have htext : lookalikeText.toList = "; one".toList ++ Ending.lf.chars ++
      ("[DEFAULT]".toList ++ [] ++ Ending.crlf.chars ++
        ("ArGs\t:#1 a=b".toList ++ [] ++ Ending.lf.chars ++ ([] ++ Ending.lf.chars ++
          ("\t[DEFAULT]\tk:".toList ++ [] ++ Ending.lf.chars ++
            (" # two".toList ++ Ending.lf.chars ++ ("  --x  ;".toList ++ [' '] ++ Ending.lf.chars ++
              ("maxtime = 7".toList ++ [] ++ Ending.nothing.chars ++ []))))))) := by
    decide
  have hrelaid : Relaid (plain lookalikeLines) lookalikeText.toList [1, 0, 1, 1, 0, 0] := by
    rw [hlines, htext]
    refine .putIn ⟨[], "; one".toList, rfl, by simp, Or.inr (Or.inr rfl)⟩ ⟨by decide, by simp⟩ ?_
    refine .keep (by simp) ⟨by decide, by simp⟩ ⟨by decide, by simp⟩ ?_
    refine .keep (by simp) ⟨by decide, by simp⟩ ⟨by decide, by simp⟩ ?_
    refine .putIn ⟨[], [], rfl, by simp, Or.inl rfl⟩ ⟨by decide, by simp⟩ ?_
    refine .keep (by simp) ⟨by decide, by simp⟩ ⟨by decide, by simp⟩ ?_
    refine .putIn ⟨[' '], "# two".toList, rfl, List.all_eq_true.1 rfl, by decide⟩
      ⟨by decide, by simp⟩ ?_
    refine .keep (List.all_eq_true.1 rfl) ⟨by decide, by simp⟩ ⟨by decide, by simp⟩ ?_
    exact .keep (by simp) ⟨by decide, by simp⟩ ⟨by decide, by decide⟩ .nil
  refine ⟨hwritten, hrelaid, ?_⟩
  rw [(parse_arguments ⟨"config"⟩ 7 (by decide) (by decide)).1 _ _ _ _ hwritten (by decide) hrelaid]
  decide

end BenchSweep.Recipe
