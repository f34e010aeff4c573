import BenchSweep.Proofs.Files.Effects
import BenchSweep.Proofs.Sweep.Progression
import BenchSweep.Proofs.Text.Numeral

/-!
# Where a sweep files its results

* `Archive.logName_inj` : the name of a log tells what it is the log of.
* `Sweep.resultsAt`, `Sweep.folderAt`, `Sweep.logAt` : the locations of the results below
  the benchmark directory, all different from one another.
* `Sweep.PlacesBelow` : a sweep whose results have these locations in a tree, and
  `Sweep.FilesBelow` one whose logs are files there.
* `Sweep.Filed` : what has become of the tree when some folders and some logs are there.
-/

namespace BenchSweep

/-! ## Names of logs -/

/-- The name of a log tells its benchmark and its number of threads: the digits behind its last
dash are the number, however many dashes and digits the benchmark has in its name. -/
theorem Archive.logName_inj {benchmark other : String} {m n : Nat} :
    logName benchmark m = logName other n ↔ benchmark = other ∧ m = n := by
  constructor
  · intro h
    have hdash (k : Nat) : '-' ∉ (Text.decimal k).reverse := fun hmem =>
      absurd (Text.isDigit_of_mem_decimal (List.mem_reverse.1 hmem)) (by decide)
    -- read from its end, the name has the digits in front of its first dash
    have hchars := congrArg (fun name => name.toList.reverse) h
    simp only [logName, Text.decimalText, String.toList_append, String.toList_ofList,
      List.reverse_append, String.reduceToList, List.reverse_singleton, List.singleton_append]
      at hchars
    obtain ⟨hdigits, hnames⟩ := Text.append_cons_inj (hdash m) (hdash n) hchars
    exact ⟨String.toList_injective (List.reverse_inj.1 hnames),
      Text.decimal_injective (List.reverse_inj.1 hdigits)⟩
  · rintro ⟨rfl, rfl⟩
    rfl

/-- The name of a log is a component if the benchmark has no slash in its name. -/
theorem Archive.isComponent_logName {benchmark : String} (h : '/' ∉ benchmark.toList) (n : Nat) :
    IsComponent (logName benchmark n) := by
  apply isComponent_dash h
  rw [Text.decimalText, String.toList_ofList]
  exact fun hslash => absurd (Text.isDigit_of_mem_decimal hslash) (by decide)

namespace Sweep

/-! ## Locations -/

/-- The location of the results. -/
def resultsAt (D : Location) : Location := Archive.directoryName :: D

/-- The location of the folder of an allocator. -/
def folderAt (D : Location) (allocator : String) : Location := allocator :: resultsAt D

/-- The location of a log. -/
def logAt (s : Sweep) (D : Location) (allocator : String) (threads : Nat) : Location :=
  Archive.logName s.benchmark threads :: folderAt D allocator

section

variable {s : Sweep} {D : Location} {a b : String} {m n : Nat}

theorem resultsAt_ne_folderAt : resultsAt D ≠ folderAt D a := by
  intro h
  have hlength := congrArg List.length h
  simp [folderAt] at hlength

theorem resultsAt_ne_logAt : resultsAt D ≠ s.logAt D a n := by
  intro h
  have hlength := congrArg List.length h
  simp only [logAt, folderAt, List.length_cons] at hlength
  omega

theorem folderAt_ne_logAt : folderAt D b ≠ s.logAt D a n := by
  intro h
  have hlength := congrArg List.length h
  simp [logAt, folderAt] at hlength

theorem folderAt_injective (h : folderAt D a = folderAt D b) : a = b :=
  (List.cons.inj h).1

theorem logAt_injective (h : s.logAt D a m = s.logAt D b n) : a = b ∧ m = n := by
  obtain ⟨hname, hfolder⟩ := List.cons.inj h
  exact ⟨folderAt_injective hfolder, (Archive.logName_inj.1 hname).2⟩

end

/-! ## Sweeps below a directory -/

/-- The results of the sweep have their own locations below a directory: its allocators are
different names of files, and no symbolic link leads the results elsewhere. -/
structure PlacesBelow (s : Sweep) (t : Tree) (D : Location) : Prop where
  directory : t.Reaches s.directory D
  distinct : s.allocators.Nodup
  allocators : ∀ a ∈ s.allocators, IsComponent a
  benchmark : '/' ∉ s.benchmark.toList
  root : ¬ t.IsLinkAt (resultsAt D)
  folders : ∀ a ∈ s.allocators, ¬ t.IsLinkAt (folderAt D a)
  logs : ∀ a ∈ s.allocators, ∀ n, 1 ≤ n → n ≤ s.maxThreads → ¬ t.IsLinkAt (s.logAt D a n)

/-- They are files of their own: no device is at the location of a log either. -/
structure FilesBelow (s : Sweep) (t : Tree) (D : Location) : Prop extends s.PlacesBelow t D where
  devices : ∀ a ∈ s.allocators, ∀ n, 1 ≤ n → n ≤ s.maxThreads → ∀ kind,
    t.node? (s.logAt D a n) ≠ some (.device kind)

/-- The tree after some of the results were filed: the folders are there, every log is related to
what was there before as `kept` says of its content, and nothing else has changed. -/
structure Filed (s : Sweep) (D : Location)
    (kept : List UInt8 → Option Node → Option Node → Prop) (before after : Tree)
    (folder : String → Prop) (log : String → Nat → List UInt8 → Prop) : Prop where
  root : Ensured (before.node? (resultsAt D)) (after.node? (resultsAt D))
  folders : ∀ a, folder a → Ensured (before.node? (folderAt D a)) (after.node? (folderAt D a))
  logs : ∀ a n content, log a n content →
    kept content (before.node? (s.logAt D a n)) (after.node? (s.logAt D a n))
  others : ∀ loc, loc ≠ resultsAt D → (∀ a, folder a → loc ≠ folderAt D a) →
    (∀ a n content, log a n content → loc ≠ s.logAt D a n) → after.node? loc = before.node? loc

section

variable {s : Sweep} {D loc : Location} {kept : List UInt8 → Option Node → Option Node → Prop}
  {t₀ t t' : Tree} {folder folder' : String → Prop} {log log' : String → Nat → List UInt8 → Prop}
  {a : String} {n : Nat} {content : List UInt8}

theorem Filed.congr (h : Filed s D kept t₀ t folder log) (hfolder : ∀ a, folder a ↔ folder' a)
    (hlog : ∀ a n content, log a n content ↔ log' a n content) :
    Filed s D kept t₀ t folder' log' where
  root := h.root
  folders a ha := h.folders a ((hfolder a).2 ha)
  logs a n content hl := h.logs a n content ((hlog a n content).2 hl)
  others loc hroot hfolders hlogs :=
    h.others loc hroot (fun a ha => hfolders a ((hfolder a).1 ha))
      fun a n content hl => hlogs a n content ((hlog a n content).1 hl)

/-- Where there are no devices, the logs are files. -/
theorem Filed.rewritten (h : Filed s D Logged t₀ t folder log) (hs : s.FilesBelow t₀ D)
    (hlog : ∀ a n content, log a n content → a ∈ s.allocators ∧ 1 ≤ n ∧ n ≤ s.maxThreads) :
    Filed s D Rewritten t₀ t folder log where
  root := h.root
  folders := h.folders
  logs a n content hl := by
    obtain ⟨ha, hn, hle⟩ := hlog a n content hl
    exact (h.logs a n content hl).rewritten (hs.devices a ha n hn hle)
  others := h.others

/-- Filing makes no links. -/
theorem Filed.not_isLinkAt (h : Filed s D Logged t₀ t folder log) (hlink : ¬ t₀.IsLinkAt loc) :
    ¬ t.IsLinkAt loc := by
  rintro ⟨target, hnode⟩
  -- what was filed is no link, and the rest is as before
  by_cases hroot : loc = resultsAt D
  · subst hroot
    exact h.root.ne_link target hnode
  by_cases hfolder : ∃ a, folder a ∧ loc = folderAt D a
  · obtain ⟨a, ha, rfl⟩ := hfolder
    exact (h.folders a ha).ne_link target hnode
  by_cases hlog : ∃ a n content, log a n content ∧ loc = s.logAt D a n
  · obtain ⟨a, n, content, hl, rfl⟩ := hlog
    exact (h.logs a n content hl).ne_link target hnode
  apply hlink
  refine ⟨target, ?_⟩
  rw [← h.others loc hroot (fun a ha heq => hfolder ⟨a, ha, heq⟩)
    fun a n content hl heq => hlog ⟨a, n, content, hl, heq⟩, hnode]

/-- A folder that has not been filed is as before. -/
theorem Filed.node?_folderAt (h : Filed s D kept t₀ t folder log) (ha : ¬ folder a) :
    t.node? (folderAt D a) = t₀.node? (folderAt D a) := by
  apply h.others
  · exact Ne.symm resultsAt_ne_folderAt
  · rintro b hb heq
    exact ha (folderAt_injective heq ▸ hb)
  · intro b n content _
    exact folderAt_ne_logAt

/-- A log that has not been filed is as before. -/
theorem Filed.node?_logAt (h : Filed s D kept t₀ t folder log) (hl : ∀ content, ¬ log a n content) :
    t.node? (s.logAt D a n) = t₀.node? (s.logAt D a n) := by
  apply h.others
  · exact Ne.symm resultsAt_ne_logAt
  · intro b _
    exact Ne.symm folderAt_ne_logAt
  · rintro b m content hb heq
    obtain ⟨rfl, rfl⟩ := logAt_injective heq
    exact hl content hb

/-- A folder is added. -/
theorem Filed.ensure (h : Filed s D kept t₀ t folder log) (ha : ¬ folder a)
    (hsame : t.SameBut t' (folderAt D a))
    (hnode : Ensured (t.node? (folderAt D a)) (t'.node? (folderAt D a))) :
    Filed s D kept t₀ t' (fun b => folder b ∨ b = a) log where
  root := by
    rw [hsame.node? _ resultsAt_ne_folderAt]
    exact h.root
  folders b hb := by
    by_cases hba : b = a
    · subst hba
      rwa [h.node?_folderAt ha] at hnode
    · rw [hsame.node? _ fun heq => hba (folderAt_injective heq)]
      exact h.folders b (hb.resolve_right hba)
  logs b n content hb := by
    rw [hsame.node? _ (Ne.symm folderAt_ne_logAt)]
    exact h.logs b n content hb
  others loc hroot hfolders hlogs := by
    rw [hsame.node? _ (hfolders a (Or.inr rfl))]
    exact h.others loc hroot (fun b hb => hfolders b (Or.inl hb)) hlogs

/-- A log is added, or its content has changed. -/
theorem Filed.rewrite (h : Filed s D kept t₀ t folder log) (hsame : t.SameBut t' (s.logAt D a n))
    (hnode : kept content (t₀.node? (s.logAt D a n)) (t'.node? (s.logAt D a n))) :
    Filed s D kept t₀ t' folder fun b m c =>
      ¬ (b = a ∧ m = n) ∧ log b m c ∨ (b = a ∧ m = n) ∧ c = content where
  root := by
    rw [hsame.node? _ resultsAt_ne_logAt]
    exact h.root
  folders b hb := by
    rw [hsame.node? _ folderAt_ne_logAt]
    exact h.folders b hb
  logs b m c hb := by
    rcases hb with ⟨hne, hb⟩ | ⟨⟨rfl, rfl⟩, rfl⟩
    · rw [hsame.node? _ fun heq => hne (logAt_injective heq)]
      exact h.logs b m c hb
    · exact hnode
  others loc hroot hfolders hlogs := by
    -- the log of the pair counts as filed with its new content, whatever it held before
    have hloc : loc ≠ s.logAt D a n := hlogs a n content (Or.inr ⟨⟨rfl, rfl⟩, rfl⟩)
    rw [hsame.node? _ hloc]
    refine h.others loc hroot hfolders fun b m c hb => ?_
    by_cases hpair : b = a ∧ m = n
    · obtain ⟨rfl, rfl⟩ := hpair
      exact hloc
    · exact hlogs b m c (Or.inl ⟨hpair, hb⟩)

end

end Sweep

end BenchSweep
