import BenchSweep.Proofs.Files.Replay
import BenchSweep.Proofs.Sweep.Early

/-!
# Directories that a sweep sees to

The directory of an archive and the folders in it are looked for first and made only then.  The
looks go through symbolic links, and the making does not.

* `Tree.Vacancy` : a path whose last name is free in a directory; there, and only there, a
  directory can be made (`Tree.makeDirectory_eq_ok_iff`).
* `ensureDirectory_of_vacancy`, `ensureDirectory_of_other`, `ensureDirectory_of_nothing` : what
  becomes of a path that does not lead to a directory yet.
* `SeesTo` : all that seeing to a directory comes to.
* `Archive.seesTo_directories` : an archive sees to its directory and to its folders.
-/

namespace BenchSweep

namespace Tree

variable {t t' : Tree} {p : Path} {loc here : Location} {node : Node} {front : List String}
  {name : String}

/-! ## Free names -/

/-- The path is one that the system takes, the names in front of its last one lead to a directory,
and in this directory the last name is free: not even a link has it. -/
structure Vacancy (t : Tree) (p : Path) (loc : Location) : Prop where
  ne_empty : p.text ≠ ""
  noNul : Path.holdsNul p.text = false
  short : p.text.utf8ByteSize < pathLimit
  parent : ∃ front name here, p.components = front ++ [name] ∧ loc = name :: here ∧
    IsOrdinary name ∧ Leads t linkLimit (start p t.workingDirectory) front here ∧
    t.isDirectoryAt here
  free : t.node? loc = none

/-- A directory is made at a vacancy, and nowhere else. -/
theorem makeDirectory_eq_ok_iff :
    t.makeDirectory p = .ok t' ↔
      ∃ loc, t.Vacancy p loc ∧ t' = t.set loc (.directory resultMode) := by
  constructor
  · intro h
    obtain ⟨hempty, -, hshort, -⟩ := (resolves_of_makeDirectory h).1
    obtain ⟨hnul, here, name, hwalk, hlast, hdir, hname, hfree, rfl⟩ := makeDirectory_ok h
    have hsplit : p.components = p.components.dropLast ++ [name] :=
      (List.dropLast_append_getLast? name hlast).symm
    rw [walkFrom, if_neg hempty, if_neg (Nat.not_le.2 hshort)] at hwalk
    have hparent := leads_of_walk hwalk
    exact ⟨_, ⟨hempty, hnul, hshort, ⟨_, name, here, hsplit, rfl, hname, hparent, hdir⟩, hfree⟩,
      rfl⟩
  · rintro ⟨loc, ⟨hempty, hnul, hshort, hparent, hfree⟩, rfl⟩
    obtain ⟨front, name, here, hsplit, rfl, ⟨-, hdot, hdots, hlong⟩, hleads, hdir⟩ := hparent
    rw [makeDirectory, if_neg (by simp [hnul]), Path.filter_names, hsplit]
    dsimp only
    rw [List.dropLast_concat, List.getLast?_concat, walkFrom, if_neg hempty,
      if_neg (Nat.not_le.2 hshort), hleads.walk]
    simp [hdir, hdot, hdots, Nat.not_lt.2 hlong, hfree]

/-- Walks that start in one place end in one place. -/
theorem Leads.unique {links : Nat} {start D E : Location} {names : List String}
    (h : Leads t links start names D) (h' : Leads t links start names E) : D = E := by
  have heq := h.walk.symm.trans h'.walk
  cases heq
  rfl

/-- Nothing is found where a name is free. -/
theorem Vacancy.not_resolves (h : t.Vacancy p loc) : ¬ ∃ node, t.Resolves p node := by
  obtain ⟨-, -, -, ⟨front, name, here, hsplit, rfl, hname, hleads, hdir⟩, hfree⟩ := h
  rintro ⟨node, hresolves⟩
  obtain ⟨loc, hfound, -⟩ := hresolves.leads
  have hcomponents : Leads t linkLimit (start p t.workingDirectory) (front ++ [name]) loc := by
    rw [← hsplit]
    rcases p.names_cases with hnames | hnames
    · rwa [hnames] at hfound
    · rw [hnames] at hfound
      exact hfound.of_slash
  have hvacant : t.walk .use linkLimit (start p t.workingDirectory) (front ++ [name]) =
      .ok (.vacant (name :: here)) := by
    refine hleads.walk_concat hname.1 fun links => ?_
    rw [walk_ordinary hdir hname (by simp), hfree]
    rfl
  rw [hcomponents.walk] at hvacant
  cases hvacant

theorem Resolves.unique {other : Node} (h : t.Resolves p node) (h' : t.Resolves p other) :
    node = other :=
  Option.some.inj ((stat?_eq_some_iff.2 h).symm.trans (stat?_eq_some_iff.2 h'))

/-- There is a directory above everything that a path resolves to. -/
theorem Resolves.exists_parent (h : t.Resolves p node) (hsplit : p.components = front ++ [name]) :
    ∃ here, Leads t linkLimit (start p t.workingDirectory) front here ∧ t.isDirectoryAt here := by
  obtain ⟨loc, hleads, -⟩ := h.leads
  rcases p.names_cases with hnames | hnames
  · rw [hnames, hsplit] at hleads
    exact hleads.of_append (List.cons_ne_nil _ _)
  · rw [hnames, hsplit, List.append_assoc] at hleads
    exact hleads.of_append (List.cons_ne_nil _ _)

/-- No name is free where there is no directory above it. -/
theorem not_vacancy_of_no_parent (hsplit : p.components = front ++ [name])
    (hnone : ∀ here, Leads t linkLimit (start p t.workingDirectory) front here →
      t.isDirectoryAt here = false) : ¬ ∃ loc, t.Vacancy p loc := by
  rintro ⟨loc, -, -, -, ⟨front', name', here, hsplit', -, -, hleads, hdir⟩, -⟩
  obtain ⟨rfl, -⟩ := List.append_inj' (hsplit.symm.trans hsplit') rfl
  rw [hnone here hleads] at hdir
  cases hdir

/-- A name that a link has is not free. -/
theorem not_vacancy_of_link (hsplit : p.components = front ++ [name])
    (hleads : Leads t linkLimit (start p t.workingDirectory) front here)
    (hlink : t.IsLinkAt (name :: here)) : ¬ ∃ loc, t.Vacancy p loc := by
  rintro ⟨loc, -, -, -, ⟨front', name', here', hsplit', rfl, -, hleads', -⟩, hfree⟩
  obtain ⟨rfl, hname⟩ := List.append_inj' (hsplit.symm.trans hsplit') rfl
  cases hname
  obtain rfl := hleads.unique hleads'
  obtain ⟨target, htarget⟩ := hlink
  rw [htarget] at hfree
  cases hfree

end Tree

/-! ## Seeing to a directory -/

section

variable {t t' : Tree} {p : Path} {loc : Location} {node : Node} {f : Failure}

theorem ensureDirectory_of_vacancy (h : t.Vacancy p loc) :
    ensureDirectory t p = .ok (t.set loc (.directory Tree.resultMode)) := by
  rw [ensureDirectory_eq, if_neg (mt Tree.pathExists_iff.1 h.not_resolves),
    Tree.makeDirectory_eq_ok_iff.2 ⟨loc, h, rfl⟩]

/-- No directory is made where no name is free. -/
theorem ensureDirectory_of_nothing (hnone : ¬ ∃ node, t.Resolves p node)
    (hvacancy : ¬ ∃ loc, t.Vacancy p loc) :
    ∃ fault, ensureDirectory t p = .error (.directoryNotMade p fault) := by
  rw [ensureDirectory_eq, if_neg (mt Tree.pathExists_iff.1 hnone)]
  cases hmake : t.makeDirectory p with
  | error fault => exact ⟨fault, rfl⟩
  | ok made =>
      obtain ⟨loc, hloc, -⟩ := Tree.makeDirectory_eq_ok_iff.1 hmake
      exact absurd ⟨loc, hloc⟩ hvacancy

theorem ensureDirectory_eq_ok_iff :
    ensureDirectory t p = .ok t' ↔
      (t' = t ∧ ∃ mode, t.Resolves p (.directory mode)) ∨
        ∃ loc, t.Vacancy p loc ∧ t' = t.set loc (.directory Tree.resultMode) := by
  constructor
  · intro h
    rcases ensureDirectory_kept_or_made h with ⟨rfl, mode, hstat⟩ | hmade
    · exact Or.inl ⟨rfl, mode, Tree.stat?_eq_some_iff.1 hstat⟩
    · exact Or.inr (Tree.makeDirectory_eq_ok_iff.1 hmade)
  · rintro (⟨rfl, mode, hresolves⟩ | ⟨loc, hvacancy, rfl⟩)
    · exact ensureDirectory_of_resolves hresolves
    · exact ensureDirectory_of_vacancy hvacancy

theorem ensureDirectory_eq_notADirectory_iff :
    ensureDirectory t p = .error (.notADirectory p) ↔
      ∃ node, t.Resolves p node ∧ node.isDirectory = false := by
  constructor
  · intro h
    rw [ensureDirectory_eq] at h
    split at h
    · next hexists =>
        obtain ⟨node, hnode⟩ := Tree.pathExists_iff.1 hexists
        split at h
        · cases h
        · next hdir =>
            rw [Tree.isDirectory, Tree.stat?_eq_some_iff.2 hnode] at hdir
            exact ⟨node, hnode, by simpa using hdir⟩
    · split at h <;> cases h
  · rintro ⟨node, hresolves, hnode⟩
    exact ensureDirectory_of_other hresolves hnode

theorem exists_ensureDirectory_eq_notMade_iff :
    (∃ fault, ensureDirectory t p = .error (.directoryNotMade p fault)) ↔
      (¬ ∃ node, t.Resolves p node) ∧ ¬ ∃ loc, t.Vacancy p loc := by
  constructor
  · rintro ⟨fault, h⟩
    refine ⟨?_, ?_⟩
    · rintro ⟨node, hresolves⟩
      cases hnode : node.isDirectory with
      | false => rw [ensureDirectory_of_other hresolves hnode] at h; cases h
      | true =>
          cases node with
          | directory mode => rw [ensureDirectory_of_resolves hresolves] at h; cases h
          | _ => cases hnode
    · rintro ⟨loc, hvacancy⟩
      rw [ensureDirectory_of_vacancy hvacancy] at h
      cases h
  · rintro ⟨hnone, hvacancy⟩
    exact ensureDirectory_of_nothing hnone hvacancy

end

/-! ## All that it comes to -/

/-- The second tree has one directory more, of mode 755 and with nothing in it. -/
structure Tree.AddsDirectory (t t' : Tree) (loc : Location) : Prop where
  eq_set : t' = t.set loc (.directory 0o755)
  free : t.node? loc = none
  node : t'.node? loc = some (.directory 0o755)
  others : t.SameBut t' loc
  empty : t.Rooted → ∀ name, t'.node? (name :: loc) = none

/-- What a function that sees to a directory at a path does to a tree: how it ends, what it leaves,
and why it fails. -/
structure SeesTo (see : Tree → Except Failure Tree) (t : Tree) (p : Path) : Prop where
  kept_or_made : ∀ t', see t = .ok t' ↔
    (t' = t ∧ ∃ mode, t.Resolves p (.directory mode)) ∨
      ∃ loc, t.Vacancy p loc ∧ t.AddsDirectory t' loc
  resolves : ∀ t', see t = .ok t' → ∃ mode, t'.Resolves p (.directory mode)
  again : ∀ t', see t = .ok t' → see t' = .ok t'
  other : see t = .error (.notADirectory p) ↔ ∃ node, t.Resolves p node ∧ node.isDirectory = false
  nothing : (∃ fault, see t = .error (.directoryNotMade p fault)) ↔
    (¬ ∃ node, t.Resolves p node) ∧ ¬ ∃ loc, t.Vacancy p loc
  failures : ∀ f, see t = .error f → f = .notADirectory p ∨ ∃ fault, f = .directoryNotMade p fault
  no_parent : ∀ front name, p.components = front ++ [name] →
    (∀ here, Tree.Leads t linkLimit (Tree.start p t.workingDirectory) front here →
      t.isDirectoryAt here = false) →
    ∃ fault, see t = .error (.directoryNotMade p fault)
  dead_link : ∀ front name here, p.components = front ++ [name] →
    Tree.Leads t linkLimit (Tree.start p t.workingDirectory) front here →
    t.IsLinkAt (name :: here) → (¬ ∃ node, t.Resolves p node) →
    ∃ fault, see t = .error (.directoryNotMade p fault)

variable {t : Tree} {p : Path} {loc : Location}

/-- What is made at a vacancy is one directory more. -/
theorem Tree.Vacancy.addsDirectory (h : t.Vacancy p loc) :
    t.AddsDirectory (t.set loc (.directory Tree.resultMode)) loc := by
  have hne := Tree.ne_nil_of_free h.free
  have hsame := t.sameBut_set hne (.directory Tree.resultMode)
  refine ⟨rfl, h.free, t.node?_set_self hne _, hsame, fun hrooted name => ?_⟩
  rw [hsame.node? _ (by simp)]
  -- what stood there would stand in a directory, but there was none
  by_contra hnode
  have hdir := hrooted name loc (Option.isSome_iff_ne_none.2 hnode)
  rw [Tree.isDirectoryAt, h.free] at hdir
  cases hdir

theorem seesTo_ensureDirectory (t : Tree) (p : Path) : SeesTo (ensureDirectory · p) t p where
  kept_or_made t' := by
    rw [ensureDirectory_eq_ok_iff]
    refine or_congr_right (exists_congr fun loc => and_congr_right fun hvacancy => ?_)
    exact ⟨fun h => h ▸ hvacancy.addsDirectory, fun h => h.eq_set⟩
  resolves t' h := (ensureDirectory_cases h).1
  again t' h := by
    obtain ⟨mode, hresolves⟩ := (ensureDirectory_cases h).1
    exact ensureDirectory_of_resolves hresolves
  other := ensureDirectory_eq_notADirectory_iff
  nothing := exists_ensureDirectory_eq_notMade_iff
  failures f h := ensureDirectory_error h
  no_parent front name hsplit hnone := by
    refine ensureDirectory_of_nothing ?_ (Tree.not_vacancy_of_no_parent hsplit hnone)
    rintro ⟨node, hresolves⟩
    obtain ⟨here, hleads, hdir⟩ := hresolves.exists_parent hsplit
    rw [hnone here hleads] at hdir
    cases hdir
  dead_link front name here hsplit hleads hlink hnone :=
    ensureDirectory_of_nothing hnone (Tree.not_vacancy_of_link hsplit hleads hlink)

namespace Archive

theorem map_open? (dir : Path) :
    (fun t => (open? t dir).map Prod.fst) = (ensureDirectory · (dir.join directoryName)) := by
  funext t
  rw [open?_eq]
  cases ensureDirectory t (dir.join directoryName) <;> rfl

/-- An archive is opened, and the folder of an allocator is seen to, by way of a directory at a
path.  If that goes well, the path resolves to a directory, and nothing else has changed: it did
before, or there is one empty directory more, in a directory that was there.  It fails where the
path resolves to something else, and where it resolves to nothing and its last name is not free in
a directory: a parent is missing or no directory, or a link that leads nowhere has the name.  A
failure leaves all as it was, and what went well once goes well again and changes nothing. -/
theorem seesTo_directories {σ : Type} (scene : Sweep.Scene σ) :
    (∀ dir,
      SeesTo (fun t => (open? t dir).map Prod.fst) scene.tree (dir.join "Results") ∧
      (∀ made archive, open? scene.tree dir = .ok (made, archive) → archive = ofDirectory dir) ∧
      ∀ f, open? scene.tree dir = .error f →
        Sweep.after (Sweep.withTree (open? · dir)) scene = (.error f, scene)) ∧
    ∀ (archive : Archive) (allocator : String),
      SeesTo (archive.ensureFolder · allocator) scene.tree (archive.root.join allocator) ∧
      ∀ f, archive.ensureFolder scene.tree allocator = .error f →
        Sweep.after (Sweep.ensureFolder archive allocator) scene = (.error f, scene) := by
  refine ⟨fun dir => ⟨?_, fun made archive h => ?_, fun f h => ?_⟩,
    fun archive allocator => ⟨seesTo_ensureDirectory _ _, fun f h => ?_⟩⟩
  · rw [map_open?]
    exact seesTo_ensureDirectory _ _
  · rw [open?_eq] at h
    cases hmade : ensureDirectory scene.tree (dir.join directoryName) with
    | error f => rw [hmade] at h; cases h
    | ok t => rw [hmade] at h; cases h; rfl
  · rw [Sweep.after_withTree, h]
  · rw [Sweep.after_ensureFolder, h]

/-- In the working directory the place of the archive is a link that leads nowhere. -/
theorem seesTo_directories_link :
    let scene : Sweep.Scene Unit := ⟨Sweep.linkTree, (), #[], #[], 0⟩
    ∃ fault, Sweep.after (Sweep.withTree (open? · ⟨"."⟩)) scene =
      (.error (.directoryNotMade ⟨"./Results"⟩ fault), scene) := by
  intro scene
  obtain ⟨hsees, -, hunchanged⟩ := (seesTo_directories scene).1 ⟨"."⟩
  have hleads : Tree.Leads scene.tree linkLimit ["bench", "tmp"] ["."] ["bench", "tmp"] :=
    .skip (by decide) (Or.inr rfl) .stay
  have hnothing : scene.tree.stat? ⟨"./Results"⟩ = none := by decide +kernel
  obtain ⟨fault, hfault⟩ := hsees.dead_link ["."] "Results" _ (by decide +kernel) hleads
    ⟨"nowhere", by decide +kernel⟩ fun ⟨node, hnode⟩ => by
      cases hnothing.symm.trans (Tree.stat?_eq_some_iff.2 hnode)
  refine ⟨fault, hunchanged _ ?_⟩
  cases hopen : open? scene.tree ⟨"."⟩ with
  | ok made => rw [hopen] at hfault; cases hfault
  | error f => rw [hopen] at hfault; cases hfault; rfl

end Archive

end BenchSweep
