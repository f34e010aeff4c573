import BenchSweep.Proofs.Ini.Arguments
import BenchSweep.Sweep

/-!
# Announcements of trials

The line that announces a trial shows the words of its command between apostrophes, and whatever
stands in a word stands there as it is.  A blank in no word is enough to find the words again.

* `Trial.Blankless` : no word of the command line holds a blank.
* `Trial.quotedList_append_inj` : words without spaces are found again behind one another.
* `Trial.announcement_eq_iff` : two announcements without blanks in their words are the same only
  for the same command line and the same time limit.
-/

namespace BenchSweep

namespace Trial

/-- Does no word of the command line hold a blank? -/
def Blankless (t : Trial) : Prop :=
  ∀ word ∈ t.commandLine, ∀ c ∈ word.toList, Text.isBlank c = false

instance (t : Trial) : Decidable t.Blankless :=
  decidable_of_iff (t.commandLine.all fun word => word.toList.all fun c => !Text.isBlank c)
    (by simp [Blankless])

variable {word other : String} {words others : List String} {s s' : List Char}

/-! ## Words between apostrophes -/

theorem quotedList_singleton (word : String) :
    (quotedList [word]).toList = '\'' :: (word.toList ++ ['\'']) := by
  simp [quotedList]

theorem quotedList_cons_cons (word next : String) (words : List String) :
    (quotedList (word :: next :: words)).toList =
      '\'' :: (word.toList ++ '\'' :: ',' :: ' ' :: (quotedList (next :: words)).toList) := by
  simp [quotedList, String.toList_intercalate]

/-- The first word of a list, up to the first space behind it. -/
def firstPiece (word : String) : List String → List Char
  | [] => word.toList ++ ['\'', ']', '\'']
  | _ :: _ => word.toList ++ ['\'', ',']

/-- What follows the first space behind the first word of a list. -/
def behindFirst (s : List Char) : List String → List Char
  | [] => s
  | next :: words => (quotedList (next :: words)).toList ++ ']' :: '\'' :: ' ' :: s

theorem quotedList_append (word : String) (words : List String) (s : List Char) :
    (quotedList (word :: words)).toList ++ ']' :: '\'' :: ' ' :: s =
      '\'' :: (firstPiece word words ++ ' ' :: behindFirst s words) := by
  cases words with
  | nil => simp [quotedList_singleton, firstPiece, behindFirst]
  | cons next words => simp [quotedList_cons_cons, firstPiece, behindFirst]

theorem space_not_mem_firstPiece (hword : ' ' ∉ word.toList) (words : List String) :
    ' ' ∉ firstPiece word words := by
  cases words <;> simpa [firstPiece] using hword

/-- What closes a word tells whether another one follows. -/
theorem firstPiece_inj (h : firstPiece word words = firstPiece other others) :
    word = other ∧ (words = [] ↔ others = []) := by
  have hlast := congrArg List.getLast? h
  cases words <;> cases others <;> simp [firstPiece] at h hlast ⊢
  all_goals exact String.toList_injective h

/-- The first words of two lists are found again, and what follows them. -/
theorem quotedList_append_cons_inj (hword : ' ' ∉ word.toList) (hother : ' ' ∉ other.toList)
    (h : (quotedList (word :: words)).toList ++ ']' :: '\'' :: ' ' :: s =
      (quotedList (other :: others)).toList ++ ']' :: '\'' :: ' ' :: s') :
    word = other ∧ (words = [] ↔ others = []) ∧ behindFirst s words = behindFirst s' others := by
  rw [quotedList_append, quotedList_append] at h
  obtain ⟨hpiece, hrest⟩ := Text.append_cons_inj (space_not_mem_firstPiece hword words)
    (space_not_mem_firstPiece hother others) (List.cons.inj h).2
  obtain ⟨hfirst, hnone⟩ := firstPiece_inj hpiece
  exact ⟨hfirst, hnone, hrest⟩

/-- Words without spaces are all found again, and what follows the list. -/
theorem quotedList_append_inj (hwords : ∀ w ∈ word :: words, ' ' ∉ w.toList)
    (hothers : ∀ w ∈ other :: others, ' ' ∉ w.toList)
    (h : (quotedList (word :: words)).toList ++ ']' :: '\'' :: ' ' :: s =
      (quotedList (other :: others)).toList ++ ']' :: '\'' :: ' ' :: s') :
    word :: words = other :: others ∧ s = s' := by
  induction words generalizing word other others with
  | nil =>
      obtain ⟨rfl, hnone, hrest⟩ := quotedList_append_cons_inj (hwords _ List.mem_cons_self)
        (hothers _ List.mem_cons_self) h
      obtain rfl := hnone.1 rfl
      exact ⟨rfl, hrest⟩
  | cons next words ih =>
      obtain ⟨rfl, hnone, hrest⟩ := quotedList_append_cons_inj (hwords _ List.mem_cons_self)
        (hothers _ List.mem_cons_self) h
      cases others with
      | nil => cases hnone.2 rfl
      | cons next' others =>
          obtain ⟨hlist, hend⟩ := ih (List.forall_mem_cons.1 hwords).2
            (List.forall_mem_cons.1 hothers).2 hrest
          exact ⟨congrArg (word :: ·) hlist, hend⟩

/-! ## Announcements -/

theorem announcement_toList (t : Trial) (timeLimit : Nat) :
    (t.announcement timeLimit).toList =
      "Running '[".toList ++ ((quotedList (t.program.text :: t.args)).toList ++
        ']' :: '\'' :: ' ' :: ("with timeout ".toList ++ Text.decimal timeLimit)) := by
  simp [announcement, commandLine, Text.decimalText]

/-- A word without blanks holds no space. -/
theorem Blankless.space_not_mem {t : Trial} (h : t.Blankless) :
    ∀ word ∈ t.program.text :: t.args, ' ' ∉ word.toList := by
  intro word hword hspace
  exact absurd (h word hword ' ' hspace) (by decide)

/-- The arguments of a trial hold no blank: the number of threads is a numeral, and a recipe has its
arguments from the words of its text. -/
theorem blankless_trial_iff {path : Path} {text : String} {recipe : Recipe}
    (h : Recipe.parse path text = .ok recipe) (sweep : Sweep) (allocator : String)
    (threads iteration : Nat) :
    (sweep.trial recipe allocator threads iteration).Blankless ↔
      ∀ c ∈ (sweep.program allocator).text.toList, Text.isBlank c = false := by
  have hthreads : ∀ c ∈ (Text.decimalText threads).toList, Text.isBlank c = false := by
    intro c hc
    rw [Text.decimalText, String.toList_ofList] at hc
    exact (Text.isNumeral_decimal threads).not_blank hc
  have hextra : ∀ arg ∈ recipe.extraArgs, ∀ c ∈ arg.toList, Text.isBlank c = false :=
    fun arg harg => (Recipe.isWord_of_parse h arg harg).2
  constructor
  · intro hall
    exact hall _ List.mem_cons_self
  · intro hprogram
    exact List.forall_mem_cons.2 ⟨hprogram, List.forall_mem_cons.2 ⟨hthreads, hextra⟩⟩

/-- Two announcements are the same only for the same command line, word by word, and the same time
limit, as long as no word holds a blank; whatever else stands in the words, and however many there
are.  The arguments that a sweep takes from a recipe hold no blank, so that it is enough if the
path of its program holds none. -/
theorem announcement_eq_iff (t u : Trial) (ht : t.Blankless) (hu : u.Blankless) (n m : Nat) :
    (t.announcement n = u.announcement m ↔ t.commandLine = u.commandLine ∧ n = m) ∧
      ∀ path text recipe, Recipe.parse path text = .ok recipe →
        ∀ (sweep : Sweep) allocator threads iteration,
          (sweep.trial recipe allocator threads iteration).Blankless ↔
            ∀ c ∈ (sweep.program allocator).text.toList, Text.isBlank c = false := by
  refine ⟨⟨fun h => ?_, fun ⟨hline, hlimit⟩ => ?_⟩, fun _ _ _ => blankless_trial_iff⟩
  · have hchars := congrArg String.toList h
    rw [announcement_toList, announcement_toList] at hchars
    obtain ⟨hline, hend⟩ := quotedList_append_inj ht.space_not_mem hu.space_not_mem
      (List.append_cancel_left hchars)
    exact ⟨hline, Text.decimal_injective (List.append_cancel_left hend)⟩
  · rw [announcement, announcement, hline, hlimit]

/-- A comma between two apostrophes, in one word and as two words. -/
theorem announcement_eq_iff_apostrophes :
    let t : Trial := ⟨"libc", 1, 1, ⟨"./p"⟩, ["','", "", "]'"]⟩
    let u : Trial := ⟨"libc", 1, 1, ⟨"./p"⟩, ["'", "'", "", "]'"]⟩
    t.Blankless ∧ u.Blankless ∧ t.announcement 5 ≠ u.announcement 5 := by
  intro t u
  have ht : t.Blankless := by decide
  have hu : u.Blankless := by decide
  refine ⟨ht, hu, fun h => ?_⟩
  exact absurd ((announcement_eq_iff t u ht hu 5 5).1.1 h).1 (by decide)

end Trial

end BenchSweep
