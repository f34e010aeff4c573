import BenchSweep.Archive
import BenchSweep.Proofs.Files.Walk

/-!
# What paths resolve to

* `Tree.Resolves` : the node that a path resolves to, through symbolic links; `Tree.stat?` finds
  it (`Tree.stat?_eq_some_iff`).
* `Tree.readText_of_resolves` : the text of a file.
* `ensureDirectory_error` : why a directory could not be seen to.
* `Archive.open?_of_no_directory`, `Archive.open?_of_dangling_link`,
  `Archive.open?_below_no_directory` : where there can be no archive.
-/

namespace BenchSweep

/-- A text is what some bytes are in UTF-8 if they are its bytes. -/
theorem ofUtf8?_eq_some_iff {data : List UInt8} {s : String} :
    ofUtf8? data = some s ↔ utf8 s = data := by
  constructor
  · intro h
    rw [ofUtf8?, String.fromUTF8?] at h
    split at h
    · cases h
      rfl
    · cases h
  · rintro rfl
    exact ofUtf8?_utf8 s

namespace Tree

variable {t : Tree} {p dir : Path} {node : Node} {loc here D : Location} {links : Nat}
  {names rest : List String} {name : String}

/-! ## Resolving -/

/-- The path is one that the system takes, and it leads to the node through symbolic links. -/
structure Resolves (t : Tree) (p : Path) (node : Node) : Prop where
  ne_empty : p.text ≠ ""
  noNul : Path.holdsNul p.text = false
  short : p.text.utf8ByteSize < pathLimit
  leads : ∃ loc, Leads t linkLimit (start p t.workingDirectory) p.names loc ∧
    t.node? loc = some node

theorem locate_eq_found_iff :
    t.locate .use p = .ok (.found loc) ↔ p.text ≠ "" ∧ p.text.utf8ByteSize < pathLimit ∧
      Leads t linkLimit (start p t.workingDirectory) p.names loc := by
  rw [locate_eq_ok_iff]
  exact and_congr_right fun _ => and_congr_right fun _ => ⟨Arrives.leads, Leads.arrives⟩

/-- What is found at a path is what it resolves to. -/
theorem stat?_eq_some_iff : t.stat? p = some node ↔ t.Resolves p node := by
  rw [stat?]
  constructor
  · intro h
    split at h
    · cases h
    · next hnul =>
        split at h
        · next loc hlocate =>
            obtain ⟨hempty, hshort, hleads⟩ := locate_eq_found_iff.1 hlocate
            exact ⟨hempty, by simpa using hnul, hshort, loc, hleads, h⟩
        · cases h
  · rintro ⟨hempty, hnul, hshort, loc, hleads, hnode⟩
    rw [if_neg (by simp [hnul]), locate_eq_found_iff.2 ⟨hempty, hshort, hleads⟩]
    exact hnode

theorem pathExists_iff : t.pathExists p = true ↔ ∃ node, t.Resolves p node := by
  rw [pathExists, Option.isSome_iff_exists]
  exact exists_congr fun node => stat?_eq_some_iff

/-- Is there a regular file at a path? -/
theorem isFile_iff :
    t.isFile p = true ↔ ∃ stamp mode content, t.Resolves p (.file stamp mode content) := by
  rw [isFile, Option.any_eq_true]
  constructor
  · rintro ⟨node, hstat, hfile⟩
    cases node with
    | file stamp mode content => exact ⟨stamp, mode, content, stat?_eq_some_iff.1 hstat⟩
    | _ => cases hfile
  · rintro ⟨stamp, mode, content, h⟩
    exact ⟨_, stat?_eq_some_iff.2 h, rfl⟩

/-- A file is read if its bytes are a text. -/
theorem readText_of_resolves {stamp mode : Nat} {content : Content}
    (h : t.Resolves p (.file stamp mode content)) :
    t.readText p =
      match ofUtf8? content.data with
      | some s => .ok s
      | none => .error .notText := by
  obtain ⟨hempty, hnul, hshort, loc, hleads, hnode⟩ := h
  rw [readText, if_neg (by simp [hnul]), locate_eq_found_iff.2 ⟨hempty, hshort, hleads⟩]
  cases hdata : ofUtf8? content.data <;> simp only [hnode, hdata]

/-! ## Below something that is no directory -/

/-- A walk does not go on behind something that is no directory. -/
theorem Leads.walk_append_error (h : Leads t links here names D) (hdir : t.isDirectoryAt D = false)
    (hname : name ≠ "") (purpose : Purpose) :
    t.walk purpose links here (names ++ [name]) = .error .notDirectory := by
  refine h.walk_concat hname fun links => ?_
  rw [walk_eq_descend, descend]
  simp [hdir]

/-- Nothing is below something that is no directory. -/
theorem Leads.not_resolves_join
    (h : Leads t linkLimit (start dir t.workingDirectory) dir.components D)
    (hdir : t.isDirectoryAt D = false) (hname : IsComponent name) :
    ¬ ∃ node, t.Resolves (dir.join name) node := by
  rintro ⟨node, hresolves⟩
  obtain ⟨loc, hleads, -⟩ := hresolves.leads
  rw [start_join dir hname, Path.names_join dir hname] at hleads
  have herror := h.walk_append_error hdir hname.1 .use
  rw [hleads.walk] at herror
  cases herror

/-- No directory is made below something that is none, and none where a node is. -/
theorem Leads.makeDirectory_error
    (h : Leads t linkLimit (start dir t.workingDirectory) dir.components D)
    (hname : IsComponent name)
    (hrefused : t.isDirectoryAt D = false ∨ (t.node? (name :: D)).isSome = true) :
    ∃ fault, t.makeDirectory (dir.join name) = .error fault := by
  have hnames : (dir.join name).names.filter (· ≠ "") = dir.components ++ [name] := by
    rw [Path.filter_names, Path.components_join dir hname]
  rw [makeDirectory]
  split
  · exact ⟨_, rfl⟩
  · rw [hnames]
    dsimp only
    rw [List.dropLast_concat, List.getLast?_concat]
    rcases h.walkFrom_join hname with hwalk | hwalk
    · rw [hwalk]
      exact ⟨_, rfl⟩
    · rw [hwalk]
      dsimp only
      rcases hrefused with hdir | hnode
      · rw [hdir]
        exact ⟨_, rfl⟩
      · rw [if_pos hnode]
        repeat' split
        all_goals exact ⟨_, rfl⟩

/-- What is no directory is found without a slash behind its path. -/
theorem Resolves.leads_components (h : t.Resolves dir node) (hnode : node.isDirectory = false) :
    ∃ loc, Leads t linkLimit (start dir t.workingDirectory) dir.components loc ∧
      t.isDirectoryAt loc = false := by
  obtain ⟨loc, hleads, hat⟩ := h.leads
  have hdir : t.isDirectoryAt loc = false := by rw [isDirectoryAt, hat]; exact hnode
  refine ⟨loc, ?_, hdir⟩
  rcases dir.names_cases with hnames | hnames
  · rwa [hnames] at hleads
  · rw [hnames] at hleads
    exact hleads.of_slash

end Tree

/-! ## Archives -/

variable {t : Tree} {dir p : Path} {node : Node} {D : Location} {f : Failure}

/-- A directory that cannot be seen to is none, or it cannot be made. -/
theorem ensureDirectory_error (h : ensureDirectory t p = .error f) :
    f = .notADirectory p ∨ ∃ fault, f = .directoryNotMade p fault := by
  rw [ensureDirectory_eq] at h
  split at h
  · split at h
    · cases h
    · cases h
      exact Or.inl rfl
  · split at h
    · cases h
    · next fault _ =>
        cases h
        exact Or.inr ⟨fault, rfl⟩

/-- No directory is made in the place of something else. -/
theorem ensureDirectory_of_other (h : t.Resolves p node) (hnode : node.isDirectory = false) :
    ensureDirectory t p = .error (.notADirectory p) := by
  have hexists : t.pathExists p = true := Tree.pathExists_iff.2 ⟨node, h⟩
  have hdir : ¬ t.isDirectory p = true := by
    rw [Tree.isDirectory, Tree.stat?_eq_some_iff.2 h]
    simpa using hnode
  rw [ensureDirectory_eq, if_pos hexists, if_neg hdir]

namespace Archive

theorem isComponent_directoryName : IsComponent directoryName := by decide

theorem open?_eq (t : Tree) (dir : Path) :
    open? t dir = (ensureDirectory t (dir.join directoryName)).map fun made =>
      (made, ofDirectory dir) :=
  rfl

/-- There is no archive where something else is. -/
theorem open?_of_no_directory (h : t.Resolves (dir.join directoryName) node)
    (hnode : node.isDirectory = false) :
    open? t dir = .error (.notADirectory (dir.join directoryName)) := by
  rw [open?_eq, ensureDirectory_of_other h hnode]
  rfl

theorem open?_of_refused (hnone : ¬ ∃ node, t.Resolves (dir.join directoryName) node)
    (hmake : ∃ fault, t.makeDirectory (dir.join directoryName) = .error fault) :
    ∃ fault, open? t dir = .error (.directoryNotMade (dir.join directoryName) fault) := by
  obtain ⟨fault, hmake⟩ := hmake
  refine ⟨fault, ?_⟩
  rw [open?_eq, ensureDirectory_eq, if_neg (mt Tree.pathExists_iff.1 hnone), hmake]
  rfl

/-- There is no archive where a link leads nowhere. -/
theorem open?_of_dangling_link (h : t.Reaches dir D) (hlink : t.IsLinkAt (directoryName :: D))
    (hnone : ¬ ∃ node, t.Resolves (dir.join directoryName) node) :
    ∃ fault, open? t dir = .error (.directoryNotMade (dir.join directoryName) fault) := by
  obtain ⟨target, htarget⟩ := hlink
  refine open?_of_refused hnone (h.leads.makeDirectory_error isComponent_directoryName (Or.inr ?_))
  rw [htarget]
  rfl

/-- There is no archive below something that is no directory. -/
theorem open?_below_no_directory (h : t.Resolves dir node) (hnode : node.isDirectory = false) :
    ∃ fault, open? t dir = .error (.directoryNotMade (dir.join directoryName) fault) := by
  obtain ⟨loc, hleads, hdir⟩ := h.leads_components hnode
  exact open?_of_refused (hleads.not_resolves_join hdir isComponent_directoryName)
    (hleads.makeDirectory_error isComponent_directoryName (Or.inl hdir))

end Archive

end BenchSweep
