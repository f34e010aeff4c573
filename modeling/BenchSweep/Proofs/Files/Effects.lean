import BenchSweep.Archive
import BenchSweep.Proofs.Files.Walk

/-!
# What file operations leave behind

Each operation of a sweep changes at most one location.

* `Tree.SameBut` : all locations but one are as before.
* `Ensured`, `Rewritten` : what became of the node of a directory, and of that of a log.
* `Logged` : what became of a node that was opened as a log, which may also be a device.
* `Tree.Opens`, `Tree.Writes` : all that opening a file, and writing to it, can do.
* `ensureDirectory_ok`, `Tree.openTruncated_ok` : directories and logs below a directory.
* `Tree.LogOpen` : a log that is open at its end; writing appends to it (`Tree.LogOpen.write`).
-/

namespace BenchSweep

/-! ## Nodes, before and after -/

/-- There is a directory now; one that was there is as it was. -/
inductive Ensured : (was now : Option Node) → Prop
  | made : Ensured none (some (.directory Tree.resultMode))
  | kept (mode : Nat) : Ensured (some (.directory mode)) (some (.directory mode))

/-- There is a file with the content now; one that was there has lost its old content, but not its
mode. -/
inductive Rewritten (content : List UInt8) : (was now : Option Node) → Prop
  | made (stamp : Nat) :
      Rewritten content none (some (.file stamp Tree.resultMode (.bytes content)))
  | emptied (stamp mode : Nat) (old : Content) :
      Rewritten content (some (.file stamp mode old)) (some (.file stamp mode (.bytes content)))

/-- The content was written to what is there now: to a file, which holds it, or to a device, which
stays what it is. -/
inductive Logged (content : List UInt8) : (was now : Option Node) → Prop
  | file {was now : Option Node} (h : Rewritten content was now) : Logged content was now
  | device (kind : Device) : Logged content (some (.device kind)) (some (.device kind))

theorem Ensured.ne_link {was now : Option Node} (h : Ensured was now) (target : String) :
    now ≠ some (.link target) := by
  cases h <;> simp

theorem Logged.ne_link {content : List UInt8} {was now : Option Node}
    (h : Logged content was now) (target : String) : now ≠ some (.link target) := by
  rcases h with ⟨⟨⟩ | ⟨⟩⟩ | ⟨⟩ <;> simp

/-- What was no device is a file with the content now. -/
theorem Logged.rewritten {content : List UInt8} {was now : Option Node} (h : Logged content was now)
    (hdevice : ∀ kind, was ≠ some (.device kind)) : Rewritten content was now := by
  cases h with
  | file h => exact h
  | device kind => exact absurd rfl (hdevice kind)

/-- The content of a log may grow. -/
theorem Logged.append {content : List UInt8} {was : Option Node} {stamp mode : Nat}
    (h : Logged content was (some (.file stamp mode (.bytes content)))) (more : List UInt8) :
    Logged (content ++ more) was (some (.file stamp mode (.bytes (content ++ more)))) := by
  rcases h with ⟨⟨⟩ | ⟨_, _, old⟩⟩ | ⟨⟩
  · exact .file (.made stamp)
  · exact .file (.emptied stamp mode old)

/-- A device takes anything. -/
theorem Logged.of_device {content : List UInt8} {was : Option Node} {kind : Device}
    (h : Logged content was (some (.device kind))) (content' : List UInt8) :
    Logged content' was (some (.device kind)) := by
  rcases h with ⟨⟨⟩ | ⟨⟩⟩ | ⟨⟩
  exact .device kind

namespace Tree

variable {t t' t'' : Tree} {D loc : Location} {name : String} {p : Path} {was : Option Node}
  {content data : List UInt8} {handle handle' : Handle}

/-- All locations but one are as before. -/
structure SameBut (t t' : Tree) (loc : Location) : Prop where
  workingDirectory : t'.workingDirectory = t.workingDirectory
  node? : ∀ other, other ≠ loc → t'.node? other = t.node? other

theorem SameBut.refl (t : Tree) (loc : Location) : SameBut t t loc := ⟨rfl, fun _ _ => rfl⟩

theorem SameBut.trans (h : SameBut t t' loc) (h' : SameBut t' t'' loc) : SameBut t t'' loc :=
  ⟨h'.workingDirectory.trans h.workingDirectory,
    fun other hne => (h'.node? other hne).trans (h.node? other hne)⟩

theorem sameBut_set (t : Tree) (hloc : loc ≠ []) (n : Node) : SameBut t (t.set loc n) loc :=
  ⟨rfl, fun other hne => by rw [node?_set t n hloc, if_neg (Ne.symm hne)]⟩

theorem node?_set_self (t : Tree) (hloc : loc ≠ []) (n : Node) :
    (t.set loc n).node? loc = some n := by
  rw [node?_set t n hloc, if_pos rfl]

/-- A tree grows if its one other node leads where it did. -/
theorem SameBut.extends (h : SameBut t t' loc)
    (hway : ∀ w, (t.node? loc).map way = some w → (t'.node? loc).map way = some w) :
    Extends t t' := by
  refine ⟨h.workingDirectory, fun other w hw => ?_⟩
  by_cases hne : other = loc
  · subst hne
    exact hway w hw
  · rwa [h.node? other hne]

theorem extends_of_ensured (h : SameBut t t' loc) (hnode : Ensured (t.node? loc) (t'.node? loc)) :
    Extends t t' := by
  refine h.extends fun w hw => ?_
  generalize t.node? loc = was, t'.node? loc = now at hnode hw
  cases hnode with
  | made => cases hw
  | kept => exact hw

theorem extends_of_logged (h : SameBut t t' loc)
    (hnode : Logged content (t.node? loc) (t'.node? loc)) : Extends t t' := by
  refine h.extends fun w hw => ?_
  generalize t.node? loc = was, t'.node? loc = now at hnode hw
  rcases hnode with ⟨⟨⟩ | ⟨⟩⟩ | ⟨⟩
  · cases hw
  · exact hw
  · exact hw

/-- Walks do not notice what is in a log. -/
theorem extends_of_logs {content' : List UInt8} {was' : Option Node} (h : SameBut t t' loc)
    (hnode : Logged content was (t.node? loc))
    (hnode' : Logged content' was' (t'.node? loc)) : Extends t t' := by
  have hleaf {content : List UInt8} {was now : Option Node} (hnode : Logged content was now) :
      now.map way = some .leaf := by
    rcases hnode with ⟨⟨⟩ | ⟨⟩⟩ | ⟨⟩ <;> rfl
  refine h.extends fun w hw => ?_
  rw [← hw, hleaf hnode, hleaf hnode']

/-! ## Directories -/

/-- What is at the path of a component of a directory. -/
theorem Reaches.stat?_join {node : Node} (hp : t.Reaches p D) (hname : IsComponent name)
    (hlink : ¬ t.IsLinkAt (name :: D)) (h : t.stat? (p.join name) = some node) :
    name.utf8ByteSize ≤ longestName ∧ t.node? (name :: D) = some node := by
  unfold stat? at h
  split at h
  · cases h
  split at h
  · rename_i loc hloc
    obtain ⟨hlength, ⟨-, hspot⟩ | ⟨-, hspot⟩⟩ := hp.spot_cases hname hlink hloc
    · cases hspot
      exact ⟨hlength, h⟩
    · cases hspot
  · cases h

/-- A directory is made in a directory, at the last name of the path, which was free. -/
theorem makeDirectory_ok (h : t.makeDirectory p = .ok t') :
    Path.holdsNul p.text = false ∧ ∃ here name,
      t.walkFrom .use p p.components.dropLast = .ok (.found here) ∧
      p.components.getLast? = some name ∧ t.isDirectoryAt here ∧ IsOrdinary name ∧
      t.node? (name :: here) = none ∧ t' = t.set (name :: here) (.directory resultMode) := by
  unfold makeDirectory at h
  split at h
  · cases h
  next hnul =>
  rw [Path.filter_names] at h
  dsimp only at h
  split at h
  · cases h
  · cases h
  · cases h
  next here name hwalk hname =>
  by_cases hdir : t.isDirectoryAt here
  case neg => simp [hdir] at h
  by_cases hdots : name = "." ∨ name = ".."
  case pos => simp [hdir, hdots] at h
  by_cases hlong : longestName < name.utf8ByteSize
  case pos => simp [hdir, hdots, hlong] at h
  by_cases hnode : (t.node? (name :: here)).isSome
  case pos => simp [hdir, hdots, hlong, hnode] at h
  refine ⟨by simpa using hnul, here, name, hwalk, hname, hdir, ?_, by simpa using hnode, ?_⟩
  · obtain ⟨hdot, hdots⟩ := not_or.1 hdots
    have hempty := Path.ne_empty_of_mem_components (List.mem_of_getLast? hname)
    exact ⟨hempty, hdot, hdots, Nat.not_lt.1 hlong⟩
  · simp [hdir, hdots, hlong, hnode] at h
    exact h.symm

/-- A directory is made in a directory, at a name that was free. -/
theorem Reaches.makeDirectory_join (hp : t.Reaches p D) (hname : IsComponent name)
    (h : t.makeDirectory (p.join name) = .ok t') :
    name.utf8ByteSize ≤ longestName ∧ t.node? (name :: D) = none ∧
      t' = t.set (name :: D) (.directory resultMode) := by
  obtain ⟨-, here, last, hwalk, hlast, -, hordinary, hfree, hset⟩ := makeDirectory_ok h
  rw [p.components_join hname, List.getLast?_concat, Option.some.injEq] at hlast
  rw [p.components_join hname, List.dropLast_concat] at hwalk
  subst hlast
  rcases hp.leads.walkFrom_join hname with hfailed | hfound
  · rw [hfailed] at hwalk
    cases hwalk
  · obtain rfl : D = here := by
      rw [hfound] at hwalk
      cases hwalk
      rfl
    exact ⟨hordinary.2.2.2, hfree, hset⟩

end Tree

/-- A directory that was seen to was there before, or it was made. -/
theorem ensureDirectory_kept_or_made {t t' : Tree} {p : Path} (h : ensureDirectory t p = .ok t') :
    (t' = t ∧ ∃ mode, t.stat? p = some (.directory mode)) ∨ t.makeDirectory p = .ok t' := by
  rw [ensureDirectory_eq] at h
  split at h
  · split at h
    · next hdir =>
        cases h
        obtain ⟨node, hstat, hnode⟩ : ∃ node, t.stat? p = some node ∧ node.isDirectory := by
          rwa [Tree.isDirectory, Option.any_eq_true] at hdir
        cases node with
        | directory mode => exact Or.inl ⟨rfl, mode, hstat⟩
        | _ => cases hnode
    · cases h
  · split at h
    · next made hmade =>
        cases h
        exact Or.inr hmade
    · cases h

/-- A directory that was seen to below a directory. -/
theorem ensureDirectory_ok {t t' : Tree} {D : Location} {name : String} {p : Path}
    (hp : t.Reaches p D) (hname : IsComponent name) (hlink : ¬ t.IsLinkAt (name :: D))
    (h : ensureDirectory t (p.join name) = .ok t') :
    t.SameBut t' (name :: D) ∧ Ensured (t.node? (name :: D)) (t'.node? (name :: D)) ∧
      t'.Reaches (p.join name) (name :: D) := by
  rcases ensureDirectory_kept_or_made h with ⟨rfl, mode, hstat⟩ | hmade
  · obtain ⟨hlength, hat⟩ := hp.stat?_join hname hlink hstat
    refine ⟨Tree.SameBut.refl _ _, ?_, hp.join hname hlength ?_⟩
    · rw [hat]
      exact .kept mode
    · rw [Tree.isDirectoryAt, hat]
      rfl
  · obtain ⟨hlength, hnone, rfl⟩ := hp.makeDirectory_join hname hmade
    have hself := Tree.node?_set_self t (List.cons_ne_nil name D) (.directory Tree.resultMode)
    have hsame := Tree.sameBut_set t (List.cons_ne_nil name D) (.directory Tree.resultMode)
    have hnode : Ensured (t.node? (name :: D))
        ((t.set (name :: D) (.directory Tree.resultMode)).node? (name :: D)) := by
      rw [hnone, hself]
      exact .made
    refine ⟨hsame, hnode, ?_⟩
    apply (hp.mono (Tree.extends_of_ensured hsame hnode)).join hname hlength
    rw [Tree.isDirectoryAt, hself]
    rfl

namespace Tree

variable {t t' : Tree} {D loc : Location} {name : String} {p : Path} {was : Option Node}
  {content data : List UInt8} {handle handle' : Handle}

/-! ## Opening and writing -/

/-- What opening and emptying a file does. -/
inductive Opens (t : Tree) (p : Path) : Tree → Handle → Prop
  | made {loc : Location} (hspot : t.locate .make p = .ok (.vacant loc)) :
      Opens t p (t.createAt loc resultMode).1 (t.createAt loc resultMode).2
  | emptied {loc : Location} {stamp mode : Nat} {content : Content}
      (hspot : t.locate .make p = .ok (.found loc))
      (hnode : t.node? loc = some (.file stamp mode content)) :
      Opens t p (t.set loc (.file stamp mode (.bytes []))) ⟨.file loc stamp, 0⟩
  | device {loc : Location} {kind : Device} (hspot : t.locate .make p = .ok (.found loc))
      (hnode : t.node? loc = some (.device kind)) : Opens t p t ⟨.device kind, 0⟩

theorem openTruncated_eq_ok_iff :
    t.openTruncated p = .ok (t', handle) ↔ Path.holdsNul p.text = false ∧ Opens t p t' handle := by
  rw [openTruncated]
  by_cases hnul : Path.holdsNul p.text = true
  · simp [hnul]
  rw [if_neg hnul]
  constructor
  · intro h
    refine ⟨by simpa using hnul, ?_⟩
    split at h
    · cases h
    · next hspot =>
        cases h
        exact .made hspot
    · next hspot =>
        split at h
        · next hnode =>
            cases h
            exact .emptied hspot hnode
        · next hnode =>
            cases h
            exact .device hspot hnode
        · cases h
  · rintro ⟨-, h⟩
    cases h with
    | made hspot => simp only [hspot]
    | emptied hspot hnode => simp only [hspot, hnode]
    | device hspot hnode => simp only [hspot, hnode]

theorem sameBut_createAt (hloc : loc ≠ []) (mode : Nat) :
    SameBut t (t.createAt loc mode).1 loc :=
  ⟨rfl, (t.sameBut_set hloc _).node?⟩

theorem node?_createAt_self (hloc : loc ≠ []) (mode : Nat) :
    (t.createAt loc mode).1.node? loc = some (.file t.nextStamp mode (.bytes [])) :=
  t.node?_set_self hloc _

/-- What a write does: a device takes it or there is nothing to take, the file takes it, or the
file is not there any more. -/
inductive Writes (t : Tree) (data : List UInt8) : Handle → Tree → Handle → Prop
  | device {kind : Device} {offset : Nat} (htakes : kind = .null ∨ data = []) :
      Writes t data ⟨.device kind, offset⟩ t ⟨.device kind, offset⟩
  | file {loc : Location} {stamp mode offset : Nat} {content : Content} (hdata : data ≠ [])
      (hnode : t.node? loc = some (.file stamp mode content)) :
      Writes t data ⟨.file loc stamp, offset⟩
        (t.set loc (.file stamp mode (.bytes (overwrite content.data offset data))))
        ⟨.file loc stamp, offset + data.length⟩
  | unseen {loc : Location} {stamp offset : Nat}
      (hgone : data = [] ∨ ∀ mode content, t.node? loc ≠ some (.file stamp mode content)) :
      Writes t data ⟨.file loc stamp, offset⟩ t ⟨.file loc stamp, offset + data.length⟩

/-- A file takes what is written to it. -/
theorem write_of_file {stamp mode offset : Nat} {content : Content} (hdata : data ≠ [])
    (hnode : t.node? loc = some (.file stamp mode content)) :
    t.write ⟨.file loc stamp, offset⟩ data =
      .ok (t.set loc (.file stamp mode (.bytes (overwrite content.data offset data))),
        ⟨.file loc stamp, offset + data.length⟩) := by
  simp [write, hnode, hdata]

/-- What is written to a file that is not there any more is not seen. -/
theorem write_of_gone {stamp offset : Nat}
    (hgone : data = [] ∨ ∀ mode content, t.node? loc ≠ some (.file stamp mode content)) :
    t.write ⟨.file loc stamp, offset⟩ data =
      .ok (t, ⟨.file loc stamp, offset + data.length⟩) := by
  unfold write
  dsimp only
  split
  · next s mode content hnode =>
      rw [if_neg]
      intro hwrite
      obtain ⟨rfl, hdata⟩ : s = stamp ∧ data ≠ [] := by simpa using hwrite
      exact hgone.resolve_left hdata mode content hnode
  · rfl

theorem write_eq_ok_iff :
    t.write handle data = .ok (t', handle') ↔ Writes t data handle t' handle' := by
  constructor
  · obtain ⟨target, offset⟩ := handle
    intro h
    cases target with
    | device kind =>
        cases kind with
        | null =>
            cases h
            exact .device (Or.inl rfl)
        | full =>
            dsimp only [write] at h
            split at h <;> cases h
            exact .device (Or.inr (by simpa using ‹data.isEmpty = true›))
    | file loc stamp =>
        by_cases hgone : data = [] ∨ ∀ mode content, t.node? loc ≠ some (.file stamp mode content)
        · rw [write_of_gone hgone] at h
          cases h
          exact .unseen hgone
        · obtain ⟨hdata, hthere⟩ := not_or.1 hgone
          obtain ⟨mode, content, hnode⟩ : ∃ mode content,
              t.node? loc = some (.file stamp mode content) := by
            simpa using hthere
          rw [write_of_file hdata hnode] at h
          cases h
          exact .file hdata hnode
  · intro h
    cases h with
    | @device kind offset htakes =>
        cases kind with
        | null => rfl
        | full =>
            obtain rfl : data = [] := by simpa using htakes
            rfl
    | file hdata hnode => exact write_of_file hdata hnode
    | unseen hgone => exact write_of_gone hgone

/-! ## Logs -/

/-- A handle that appends to the content of a node. -/
inductive AppendsTo (t : Tree) (loc : Location) (content : List UInt8) : Handle → Prop
  | file {stamp mode : Nat} (h : t.node? loc = some (.file stamp mode (.bytes content))) :
      AppendsTo t loc content ⟨.file loc stamp, content.length⟩
  | device {kind : Device} {offset : Nat} (h : t.node? loc = some (.device kind)) :
      AppendsTo t loc content ⟨.device kind, offset⟩

/-- A log that is open at its end, with its content and what was there before it. -/
structure LogOpen (t : Tree) (loc : Location) (was : Option Node) (content : List UInt8)
    (handle : Handle) : Prop where
  node : Logged content was (t.node? loc)
  handle : AppendsTo t loc content handle

/-- A log that was opened below a directory. -/
theorem openTruncated_ok (hp : t.Reaches p D) (hname : IsComponent name)
    (hlink : ¬ t.IsLinkAt (name :: D)) (h : t.openTruncated (p.join name) = .ok (t', handle)) :
    t.SameBut t' (name :: D) ∧
      t'.LogOpen (name :: D) (t.node? (name :: D)) [] handle := by
  have hne : name :: D ≠ [] := List.cons_ne_nil name D
  cases (openTruncated_eq_ok_iff.1 h).2 with
  | made hfree =>
      obtain ⟨-, ⟨-, hspot⟩ | ⟨hnone, hspot⟩⟩ := hp.spot_cases hname hlink hfree <;> cases hspot
      have hself := t.node?_createAt_self hne resultMode
      refine ⟨sameBut_createAt hne resultMode, ⟨?_, .file hself⟩⟩
      rw [hnone]
      exact hself ▸ .file (.made _)
  | @emptied loc stamp mode old hfound hnode =>
      obtain ⟨-, ⟨-, hspot⟩ | ⟨-, hspot⟩⟩ := hp.spot_cases hname hlink hfound <;> cases hspot
      have hself := t.node?_set_self hne (.file stamp mode (.bytes []))
      refine ⟨t.sameBut_set hne _, ⟨?_, .file hself⟩⟩
      rw [hnode, hself]
      exact .file (.emptied stamp mode old)
  | @device loc kind hfound hnode =>
      obtain ⟨-, ⟨-, hspot⟩ | ⟨-, hspot⟩⟩ := hp.spot_cases hname hlink hfound <;> cases hspot
      refine ⟨SameBut.refl t _, ⟨?_, .device hnode⟩⟩
      rw [hnode]
      exact .device kind

/-- A handle behind new bytes. -/
theorem AppendsTo.moved {stamp mode : Nat}
    (h : t.node? loc = some (.file stamp mode (.bytes (content ++ data)))) :
    AppendsTo t loc (content ++ data) ⟨.file loc stamp, content.length + data.length⟩ := by
  rw [← List.length_append]
  exact .file h

/-- What is written to a log goes behind its content. -/
theorem LogOpen.write (hlog : t.LogOpen loc was content handle) (hloc : loc ≠ [])
    (h : t.write handle data = .ok (t', handle')) :
    t.SameBut t' loc ∧ t'.LogOpen loc was (content ++ data) handle' := by
  obtain ⟨hnode, hhandle⟩ := hlog
  cases write_eq_ok_iff.1 h with
  | @device kind offset htakes =>
      -- a device keeps nothing
      cases hhandle with
      | device hat =>
          refine ⟨SameBut.refl t loc, ⟨?_, .device hat⟩⟩
          rw [hat] at hnode ⊢
          exact hnode.of_device _
  | @file target stamp mode offset old hdata hold =>
      cases hhandle with
      | file hat =>
          cases hat.symm.trans hold
          have hgrown := Logged.append (hat ▸ hnode) data
          -- the offset is the length of the content, so nothing is written over
          rw [Content.data, overwrite_length]
          have hself := t.node?_set_self hloc (.file stamp mode (.bytes (content ++ data)))
          exact ⟨t.sameBut_set hloc _, ⟨hself ▸ hgrown, .moved hself⟩⟩
  | unseen hgone =>
      -- the file is there, so there is nothing to write
      cases hhandle with
      | file hat =>
          obtain rfl : data = [] := hgone.resolve_right fun hnone => hnone _ _ hat
          rw [List.append_nil]
          exact ⟨SameBut.refl t loc, ⟨hnode, .file hat⟩⟩

/-- Only devices refuse a write. -/
theorem LogOpen.logged_of_write_error {fault : Fault} (hlog : t.LogOpen loc was content handle)
    (h : t.write handle data = .error fault) (content' : List UInt8) :
    Logged content' was (t.node? loc) := by
  obtain ⟨hnode, hhandle⟩ := hlog
  cases hhandle with
  | @file stamp mode hat =>
      simp only [Tree.write, hat] at h
      split at h <;> cases h
  | @device kind offset hat =>
      rw [hat] at hnode ⊢
      exact hnode.of_device content'

end Tree

/-- What is opened as a log is what is at its place. -/
theorem Archive.openLog_ok {a : Archive} {t opened : Tree} {allocator benchmark : String}
    {threads : Nat} {log : ResultLog}
    (h : a.openLog t allocator benchmark threads = .ok (opened, log)) :
    t.openTruncated (a.logPath allocator benchmark threads) = .ok (opened, log.handle) ∧
      log.path = a.logPath allocator benchmark threads := by
  dsimp only [openLog] at h
  split at h
  · rename_i hopen
    cases h
    exact ⟨hopen, rfl⟩
  · cases h

end BenchSweep
