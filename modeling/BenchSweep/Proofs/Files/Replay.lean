import Mathlib.Data.List.Basic
import BenchSweep.Proofs.Files.Effects
import BenchSweep.Proofs.Files.Resolve
import BenchSweep.Proofs.Table

/-!
# Doing file operations again

File operations are done a second time, on the tree that they led to in the end, perhaps by
way of many others.  Directories are there already, logs are found where they were made, and the
same is written to them again.

* `Tree.Grows` : what operations do to a tree, whatever they write: nothing goes away, and files
  keep their identity and their mode.
* `Tree.Refilled` : a tree in which files hold something else.
* `Tree.Replays` : the tree of the second time, beside that of the first time and the last tree of
  all.  It is kept by directories, logs and writes (`Tree.Replays.ensureDirectory`,
  `Tree.Replays.openTruncated`, `Tree.Replays.writeAll`), and at the end the two trees are equal
  (`Tree.Replays.eq_last`).
-/

namespace BenchSweep

/-- A node without the content of a file. -/
def Node.emptied : Node → Node
  | .file stamp mode _ => .file stamp mode (.bytes [])
  | node => node

theorem Node.emptied_eq_directory_iff {node : Node} {mode : Nat} :
    node.emptied = .directory mode ↔ node = .directory mode := by
  cases node <;> simp [emptied]

theorem Node.emptied_eq_file_iff {node : Node} {stamp mode : Nat} :
    node.emptied = .file stamp mode (.bytes []) ↔ ∃ content, node = .file stamp mode content := by
  cases node <;> simp [emptied]

namespace Tree

variable {t t' t'' u last : Tree} {p : Path} {loc : Location} {node : Node} {stamp mode : Nat}
  {content content' : Content} {data : List UInt8} {handle handle' : Handle}

theorem ne_nil_of_free (h : t.node? loc = none) : loc ≠ [] := by
  rintro rfl
  cases h

theorem ne_nil_of_file (h : t.node? loc = some (.file stamp mode content)) : loc ≠ [] := by
  rintro rfl
  cases h

/-! ## Growing trees -/

/-- A tree in which everything still is what it was, but for the contents of files. -/
structure Grows (t t' : Tree) : Prop where
  workingDirectory : t'.workingDirectory = t.workingDirectory
  nodes : ∀ loc n, (t.node? loc).map Node.emptied = some n →
    (t'.node? loc).map Node.emptied = some n

theorem Grows.refl (t : Tree) : Grows t t := ⟨rfl, fun _ _ h => h⟩

theorem Grows.trans (h : Grows t t') (h' : Grows t' t'') : Grows t t'' :=
  ⟨h'.workingDirectory.trans h.workingDirectory, fun loc n hn => h'.nodes loc n (h.nodes loc n hn)⟩

/-- Walks do not notice the contents of files. -/
theorem Grows.extends (h : Grows t t') : Extends t t' := by
  have hway (node : Node) : way node.emptied = way node := by cases node <;> rfl
  refine ⟨h.workingDirectory, fun loc w hw => ?_⟩
  obtain ⟨node, hnode, rfl⟩ := Option.map_eq_some_iff.1 hw
  have hgrown := h.nodes loc node.emptied (by rw [hnode]; rfl)
  obtain ⟨node', hnode', heq⟩ := Option.map_eq_some_iff.1 hgrown
  rw [hnode', Option.map_some, ← hway, heq, hway]

theorem Grows.directory (h : Grows t t') (hnode : t.node? loc = some (.directory mode)) :
    t'.node? loc = some (.directory mode) := by
  have hgrown := h.nodes loc (.directory mode) (by rw [hnode]; rfl)
  obtain ⟨node, hnode', heq⟩ := Option.map_eq_some_iff.1 hgrown
  rw [hnode', Node.emptied_eq_directory_iff.1 heq]

theorem Grows.exists_file (h : Grows t t') (hnode : t.node? loc = some (.file stamp mode content)) :
    ∃ content', t'.node? loc = some (.file stamp mode content') := by
  have hgrown := h.nodes loc (.file stamp mode (.bytes [])) (by rw [hnode]; rfl)
  obtain ⟨node, hnode', heq⟩ := Option.map_eq_some_iff.1 hgrown
  obtain ⟨content', rfl⟩ := Node.emptied_eq_file_iff.1 heq
  exact ⟨content', hnode'⟩

theorem Grows.device {kind : Device} (h : Grows t t') (hnode : t.node? loc = some (.device kind)) :
    t'.node? loc = some (.device kind) := by
  have hgrown := h.nodes loc (.device kind) (by rw [hnode]; rfl)
  obtain ⟨node, hnode', heq⟩ := Option.map_eq_some_iff.1 hgrown
  cases node <;> cases heq
  exact hnode'

/-- A path to a directory leads to it for ever. -/
theorem Grows.resolves_directory (h : Grows t t') (hp : t.Resolves p (.directory mode)) :
    t'.Resolves p (.directory mode) := by
  obtain ⟨hempty, hnul, hshort, loc, hleads, hnode⟩ := hp
  refine ⟨hempty, hnul, hshort, loc, ?_, h.directory hnode⟩
  rw [h.workingDirectory]
  exact h.extends.leads hleads

/-- What is made at a free location takes nothing away. -/
theorem SameBut.grows_of_free (h : SameBut t t' loc) (hfree : t.node? loc = none) :
    Grows t t' := by
  refine ⟨h.workingDirectory, fun other n hn => ?_⟩
  by_cases hother : other = loc
  · rw [hother, hfree] at hn
    cases hn
  · rwa [h.node? other hother]

/-- A file may get another content. -/
theorem SameBut.grows_of_file (h : SameBut t t' loc)
    (hnode : t.node? loc = some (.file stamp mode content))
    (hnode' : t'.node? loc = some (.file stamp mode content')) : Grows t t' := by
  refine ⟨h.workingDirectory, fun other n hn => ?_⟩
  by_cases hother : other = loc
  · rw [hother, hnode] at hn
    rw [hother, hnode']
    exact hn
  · rwa [h.node? other hother]

theorem grows_set_file (hnode : t.node? loc = some (.file stamp mode content)) :
    Grows t (t.set loc (.file stamp mode content')) :=
  (sameBut_set t (ne_nil_of_file hnode) _).grows_of_file hnode
    (t.node?_set_self (ne_nil_of_file hnode) _)

/-! ## Directories that are seen to -/

/-- A path leads to the directory that its last name names, with a slash behind it or not. -/
theorem Leads.to_last {links : Nat} {here D : Location} {name : String}
    (h : Leads t links here p.components.dropLast D) (hlast : p.components.getLast? = some name)
    (hdir : t.isDirectoryAt D) (hname : IsOrdinary name)
    (hnode : t.node? (name :: D) = some (.directory mode)) :
    Leads t links here p.names (name :: D) := by
  have hsplit : p.components.dropLast ++ [name] = p.components :=
    List.dropLast_append_getLast? name hlast
  have hlink : ¬ t.IsLinkAt (name :: D) := by
    rintro ⟨target, htarget⟩
    cases hnode.symm.trans htarget
  have hdir' : t.isDirectoryAt (name :: D) := by
    rw [isDirectoryAt, hnode]
    rfl
  apply leads_of_walk
  rcases p.names_cases with hnames | hnames
  · rw [hnames, ← hsplit]
    refine h.walk_through (by simp) fun links => Leads.walk ?_
    exact .down hdir hname hnode hlink .stay
  · rw [hnames, ← hsplit, List.append_assoc]
    refine h.walk_through (by simp) fun links => Leads.walk ?_
    exact .down hdir hname hnode hlink (.skip hdir' (Or.inl rfl) .stay)

/-- A directory is made at a free location, and the path leads there from then on. -/
theorem resolves_of_makeDirectory (h : t.makeDirectory p = .ok t') :
    t'.Resolves p (.directory resultMode) ∧
      ∃ loc, t.node? loc = none ∧ t' = t.set loc (.directory resultMode) := by
  obtain ⟨hnul, here, name, hwalk, hlast, hdir, hname, hfree, rfl⟩ := makeDirectory_ok h
  have hne := ne_nil_of_free hfree
  have hself := t.node?_set_self hne (.directory resultMode)
  have hgrows := (t.sameBut_set hne (.directory resultMode)).grows_of_free hfree
  refine ⟨?_, _, hfree, rfl⟩
  -- the path is not empty or too long, or the walk to the parent would have failed
  unfold walkFrom at hwalk
  split at hwalk
  · cases hwalk
  next hempty =>
  split at hwalk
  · cases hwalk
  next hshort =>
  refine ⟨hempty, hnul, Nat.not_le.1 hshort, name :: here, ?_, hself⟩
  have hparent := hgrows.extends.leads (leads_of_walk hwalk)
  exact hparent.to_last hlast (hgrows.extends.isDirectoryAt hdir) hname hself

end Tree

/-- A directory that was seen to is there: nothing has changed, or it has been made at a free
location. -/
theorem ensureDirectory_cases {t t' : Tree} {p : Path} (h : ensureDirectory t p = .ok t') :
    (∃ mode, t'.Resolves p (.directory mode)) ∧
      (t' = t ∨ ∃ loc mode, t.node? loc = none ∧ t' = t.set loc (.directory mode)) := by
  rcases ensureDirectory_kept_or_made h with ⟨rfl, mode, hstat⟩ | hmade
  · exact ⟨⟨mode, Tree.stat?_eq_some_iff.1 hstat⟩, Or.inl rfl⟩
  · obtain ⟨hresolves, loc, hfree, hset⟩ := Tree.resolves_of_makeDirectory hmade
    exact ⟨⟨_, hresolves⟩, Or.inr ⟨loc, _, hfree, hset⟩⟩

/-- Nothing is made where the directory is. -/
theorem ensureDirectory_of_resolves {t : Tree} {p : Path} {mode : Nat}
    (h : t.Resolves p (.directory mode)) : ensureDirectory t p = .ok t := by
  have hexists : t.pathExists p = true := Tree.pathExists_iff.2 ⟨_, h⟩
  have hdir : t.isDirectory p = true := by
    rw [Tree.isDirectory, Tree.stat?_eq_some_iff.2 h]
    rfl
  rw [ensureDirectory_eq, if_pos hexists, if_pos hdir]

namespace Tree

variable {t t' t'' u u' last : Tree} {p : Path} {loc : Location} {node : Node} {stamp mode : Nat}
  {content content' : Content} {data : List UInt8} {handle handle' handle'' : Handle}

theorem grows_of_ensureDirectory (h : ensureDirectory t p = .ok t') : Grows t t' := by
  rcases (ensureDirectory_cases h).2 with rfl | ⟨loc, mode, hfree, rfl⟩
  · exact .refl t'
  · exact (sameBut_set t (ne_nil_of_free hfree) _).grows_of_free hfree

/-! ## Logs that are opened -/

theorem node?_eq_none_of_vacant {purpose : Purpose} (h : t.locate purpose p = .ok (.vacant loc)) :
    t.node? loc = none :=
  (locate_eq_ok_iff.1 h).2.2.node?_eq_none

theorem Opens.grows (h : Opens t p t' handle) : Grows t t' := by
  cases h with
  | made hspot =>
      have hfree := node?_eq_none_of_vacant hspot
      exact (sameBut_createAt (ne_nil_of_free hfree) _).grows_of_free hfree
  | emptied _ hnode => exact grows_set_file hnode
  | device => exact .refl t

/-- A log that was opened is empty, its path leads to it, and nothing else has changed. -/
theorem Opens.logOpen (h : Opens t p t' handle) :
    ∃ loc was, loc ≠ [] ∧ t.SameBut t' loc ∧ t'.LogOpen loc was [] handle ∧
      t'.locate .make p = .ok (.found loc) := by
  have hextends := h.grows.extends
  cases h with
  | @made loc hspot =>
      have hne := ne_nil_of_free (node?_eq_none_of_vacant hspot)
      have hself := t.node?_createAt_self hne resultMode
      refine ⟨loc, none, hne, sameBut_createAt hne resultMode, ⟨?_, .file hself⟩,
        hextends.locate hspot fun other heq => ?_⟩
      · rw [hself]
        exact .file (.made t.nextStamp)
      · cases heq
        refine ⟨_, hself, ?_⟩
        rintro ⟨target, htarget⟩
        cases hself.symm.trans htarget
  | @emptied loc stamp mode old hspot hnode =>
      have hne := ne_nil_of_file hnode
      have hself := t.node?_set_self hne (.file stamp mode (.bytes []))
      refine ⟨loc, some (.file stamp mode old), hne, t.sameBut_set hne _, ⟨?_, .file hself⟩,
        hextends.locate hspot nofun⟩
      rw [hself]
      exact .file (.emptied stamp mode old)
  | @device loc kind hspot hnode =>
      refine ⟨loc, some (.device kind), ?_, .refl t loc, ⟨?_, .device hnode⟩, hspot⟩
      · rintro rfl
        cases hnode
      · rw [hnode]
        exact .device kind

/-- A file that was opened is empty, and its path leads to it. -/
theorem Opens.file (h : Opens t p t' handle) (hfile : handle.target = .file loc stamp) :
    handle.offset = 0 ∧ (∃ mode, t'.node? loc = some (.file stamp mode (.bytes []))) ∧
      t'.locate .make p = .ok (.found loc) := by
  obtain ⟨other, was, -, -, hlog, hspot⟩ := h.logOpen
  cases hlog.handle with
  | file hnode =>
      cases hfile
      exact ⟨rfl, ⟨_, hnode⟩, hspot⟩
  | device => cases hfile

/-! ## Writes -/

/-- Write one after the other. -/
def writeAll (t : Tree) (handle : Handle) (chunks : List (List UInt8)) :
    Except Fault (Tree × Handle) :=
  chunks.foldlM (fun world data => world.1.write world.2 data) (t, handle)

@[simp] theorem writeAll_nil : t.writeAll handle [] = .ok (t, handle) := rfl

theorem writeAll_cons_eq_ok_iff {rest : List (List UInt8)} :
    t.writeAll handle (data :: rest) = .ok (t'', handle'') ↔
      ∃ t' handle', t.write handle data = .ok (t', handle') ∧
        t'.writeAll handle' rest = .ok (t'', handle'') := by
  rw [writeAll, List.foldlM_cons]
  cases hwrite : t.write handle data with
  | error fault => simp [bind, Except.bind]
  | ok world => simp [bind, Except.bind, writeAll, Prod.ext_iff]

theorem Writes.grows (h : Writes t data handle t' handle') : Grows t t' := by
  cases h with
  | device => exact .refl t
  | file _ hnode => exact grows_set_file hnode
  | unseen => exact .refl t

theorem grows_of_writeAll {chunks : List (List UInt8)}
    (h : t.writeAll handle chunks = .ok (t', handle')) : Grows t t' := by
  induction chunks generalizing t handle with
  | nil =>
      cases h
      exact .refl t'
  | cons data rest ih =>
      obtain ⟨t₁, handle₁, hwrite, hrest⟩ := writeAll_cons_eq_ok_iff.1 h
      exact (write_eq_ok_iff.1 hwrite).grows.trans (ih hrest)

/-! ## Trees with other contents -/

/-- The tree with other contents in its files, and everything else as it was, the rows of its
table included. -/
structure Refilled (t u : Tree) : Prop where
  workingDirectory : u.workingDirectory = t.workingDirectory
  nextStamp : u.nextStamp = t.nextStamp
  busy : u.busy = t.busy
  rows : Table.Revalued [[]] t.nodes.rows u.nodes.rows
  nodes : ∀ loc, (u.node? loc).map Node.emptied = (t.node? loc).map Node.emptied

theorem Refilled.refl (t : Tree) : Refilled t t :=
  ⟨rfl, rfl, rfl, Table.Revalued.refl _ _, fun _ => rfl⟩

theorem Refilled.grows (h : Refilled t u) : Grows t u :=
  ⟨h.workingDirectory, fun loc _ hn => (h.nodes loc).trans hn⟩

theorem Refilled.set (h : Refilled t u) (hnode : u.node? loc = some (.file stamp mode content)) :
    Refilled t (u.set loc (.file stamp mode content')) := by
  have hne := ne_nil_of_file hnode
  have hkey : Table.find loc u.nodes.rows ≠ none := by
    rw [node?, if_neg hne] at hnode
    simp [show Table.find loc u.nodes.rows = _ from hnode]
  refine ⟨h.workingDirectory, h.nextStamp, h.busy, h.rows.assign (by simpa using hne) hkey,
    fun other => ?_⟩
  rw [← h.nodes other, node?_set u _ hne]
  split
  · next heq =>
      rw [← heq, hnode]
      rfl
  · rfl

/-- If all files hold what they held, the tree is as it was. -/
theorem Refilled.eq_of_node? (h : Refilled t u) (hnodes : ∀ loc, u.node? loc = t.node? loc) :
    u = t := by
  have hrows : u.nodes.rows = t.nodes.rows := by
    refine h.rows.eq_of_find fun loc hloc => ?_
    have hnode := hnodes loc
    simp only [List.mem_singleton] at hloc
    rwa [node?, node?, if_neg hloc, if_neg hloc] at hnode
  obtain ⟨⟨rows⟩, directory, stamp, busy⟩ := t
  obtain ⟨⟨rows'⟩, directory', stamp', busy'⟩ := u
  obtain ⟨rfl, rfl, rfl, -, -⟩ := h
  cases hrows
  rfl

/-! ## The second time -/

/-- The tree `u` of the second time, when the tree of the first time was `t` and before it became
the last one: every file holds what it held at that time, or still what it held last.  The file of
the handle that is open both times holds the former. -/
structure Replays (last t u : Tree) (handle : Handle) : Prop where
  refilled : Refilled last u
  nodes : ∀ loc, u.node? loc = t.node? loc ∨ u.node? loc = last.node? loc
  file : ∀ loc stamp, handle.target = .file loc stamp → u.node? loc = t.node? loc

/-- The second time starts from the last tree, without a file that is open. -/
theorem Replays.start {kind : Device} {offset : Nat} : Replays last t last ⟨.device kind, offset⟩ :=
  ⟨.refl last, fun _ => Or.inr rfl, nofun⟩

/-- The second time ends as the first did. -/
theorem Replays.eq_last (h : Replays last last u handle) : u = last :=
  h.refilled.eq_of_node? fun loc => (h.nodes loc).elim id id

/-- Something that was made at a free location the first time is there the second time. -/
theorem Replays.set_of_free (h : Replays last t u handle) (hfree : t.node? loc = none)
    (hlast : last.node? loc ≠ none) :
    u.node? loc = last.node? loc ∧ ∀ stamp, handle.target ≠ .file loc stamp := by
  have hnone : u.node? loc ≠ none := by
    intro hnone
    have hview := h.refilled.nodes loc
    rw [hnone, Option.map_none, eq_comm, Option.map_eq_none_iff] at hview
    exact hlast hview
  refine ⟨(h.nodes loc).resolve_left fun heq => hnone (heq.trans hfree), fun stamp htarget => ?_⟩
  exact hnone ((h.file loc stamp htarget).trans hfree)

/-- A directory that was made the first time is there the second time. -/
theorem Replays.ensureDirectory (h : Replays last t u handle)
    (hmade : ensureDirectory t p = .ok t') (hlast : Grows t' last) :
    BenchSweep.ensureDirectory u p = .ok u ∧ Replays last t' u handle := by
  obtain ⟨⟨mode, hresolves⟩, hset⟩ := ensureDirectory_cases hmade
  refine ⟨?_, ?_⟩
  · exact ensureDirectory_of_resolves ((hlast.trans h.refilled.grows).resolves_directory hresolves)
  rcases hset with rfl | ⟨loc, mode', hfree, rfl⟩
  · exact h
  have hne := ne_nil_of_free hfree
  have hself := t.node?_set_self hne (.directory mode')
  obtain ⟨hloc, hhandle⟩ := h.set_of_free hfree (by simp [hlast.directory hself])
  refine ⟨h.refilled, fun other => ?_, fun other stamp htarget => ?_⟩
  · by_cases hother : other = loc
    · subst hother
      exact Or.inr hloc
    · rw [node?_set t _ hne, if_neg (Ne.symm hother)]
      exact h.nodes other
  · have hother : loc ≠ other := by
      rintro rfl
      exact hhandle stamp htarget
    rw [node?_set t _ hne, if_neg hother]
    exact h.file other stamp htarget

/-- The file of a handle has got the same content both times. -/
theorem Replays.set_file {target : Handle} (h : Replays last t u handle) (hsame : SameBut t t' loc)
    (hnode : t'.node? loc = some (.file stamp mode content))
    (hfile : ∃ content', u.node? loc = some (.file stamp mode content'))
    (htarget : target.target = .file loc stamp) :
    Replays last t' (u.set loc (.file stamp mode content)) target := by
  obtain ⟨content', hfile⟩ := hfile
  have hne := ne_nil_of_file hnode
  have hself : (u.set loc (.file stamp mode content)).node? loc = t'.node? loc := by
    rw [hnode, node?_set_self u hne]
  refine ⟨h.refilled.set hfile, fun other => ?_, fun other stamp' hother => ?_⟩
  · by_cases hother : other = loc
    · subst hother
      exact Or.inl hself
    · rw [node?_set u _ hne, if_neg (Ne.symm hother), hsame.node? other hother]
      exact h.nodes other
  · rw [htarget] at hother
    cases hother
    exact hself

/-- A log that was opened the first time is opened the second time. -/
theorem Replays.openTruncated (h : Replays last t u handle)
    (hopen : t.openTruncated p = .ok (t', handle')) (hlast : Grows t' last) :
    ∃ u', u.openTruncated p = .ok (u', handle') ∧ Replays last t' u' handle' := by
  obtain ⟨hnul, hopens⟩ := openTruncated_eq_ok_iff.1 hopen
  have hgrows : Grows t' u := hlast.trans h.refilled.grows
  have hextends := (hopens.grows.trans hgrows).extends
  cases hopens with
  | @made loc hspot =>
      -- the file that was made is found, and emptied
      have hne := ne_nil_of_free (node?_eq_none_of_vacant hspot)
      have hself := t.node?_createAt_self hne resultMode
      obtain ⟨content, hfile⟩ := hgrows.exists_file hself
      have hfound := hextends.locate hspot fun other hother => by
        cases hother
        refine ⟨_, hfile, ?_⟩
        rintro ⟨target, htarget⟩
        cases hfile.symm.trans htarget
      refine ⟨_, openTruncated_eq_ok_iff.2 ⟨hnul, .emptied hfound hfile⟩, ?_⟩
      exact h.set_file (sameBut_createAt hne resultMode) hself ⟨content, hfile⟩ rfl
  | @emptied loc stamp mode content hspot hnode =>
      have hne := ne_nil_of_file hnode
      have hself := t.node?_set_self hne (.file stamp mode (.bytes []))
      obtain ⟨content, hfile⟩ := hgrows.exists_file hself
      have hfound := hextends.locate hspot nofun
      refine ⟨_, openTruncated_eq_ok_iff.2 ⟨hnul, .emptied hfound hfile⟩, ?_⟩
      exact h.set_file (t.sameBut_set hne _) hself ⟨content, hfile⟩ rfl
  | @device loc kind hspot hnode =>
      have hfound := hextends.locate hspot nofun
      refine ⟨u, openTruncated_eq_ok_iff.2 ⟨hnul, .device hfound (hgrows.device hnode)⟩, ?_⟩
      exact ⟨h.refilled, h.nodes, nofun⟩

/-- What was written the first time is written the second time. -/
theorem Replays.write (h : Replays last t u handle)
    (hwrite : t.write handle data = .ok (t', handle')) :
    ∃ u', u.write handle data = .ok (u', handle') ∧ Replays last t' u' handle' := by
  cases write_eq_ok_iff.1 hwrite with
  | device htakes => exact ⟨u, write_eq_ok_iff.2 (.device htakes), h⟩
  | @file loc stamp mode offset content hdata hnode =>
      -- the file holds the same both times
      have hnode' := (h.file loc stamp rfl).trans hnode
      have hne := ne_nil_of_file hnode
      refine ⟨_, write_eq_ok_iff.2 (.file hdata hnode'), ?_⟩
      exact h.set_file (t.sameBut_set hne _) (t.node?_set_self hne _) ⟨content, hnode'⟩ rfl
  | @unseen loc stamp offset hgone =>
      refine ⟨u, write_eq_ok_iff.2 (.unseen ?_),
        ⟨h.refilled, h.nodes, fun other stamp' hother => ?_⟩⟩
      · rwa [h.file loc stamp rfl]
      · cases hother
        exact h.file loc stamp rfl

theorem Replays.writeAll {chunks : List (List UInt8)} (h : Replays last t u handle)
    (hwrite : t.writeAll handle chunks = .ok (t', handle')) :
    ∃ u', u.writeAll handle chunks = .ok (u', handle') ∧ Replays last t' u' handle' := by
  induction chunks generalizing t u handle with
  | nil =>
      cases hwrite
      exact ⟨u, rfl, h⟩
  | cons data rest ih =>
      obtain ⟨t₁, handle₁, hfirst, hrest⟩ := writeAll_cons_eq_ok_iff.1 hwrite
      obtain ⟨u₁, hfirst', h₁⟩ := h.write hfirst
      obtain ⟨u₂, hrest', h₂⟩ := ih h₁ hrest
      exact ⟨u₂, writeAll_cons_eq_ok_iff.2 ⟨u₁, handle₁, hfirst', hrest'⟩, h₂⟩

end Tree

end BenchSweep
