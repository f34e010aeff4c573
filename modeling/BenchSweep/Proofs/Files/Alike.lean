import BenchSweep.Proofs.Files.Replay
import BenchSweep.Recipe

/-!
# Trees that are alike below a directory

An operation on a path below a directory does the same in all trees that are alike below it,
whatever else is in them.

* `Node.unstamped` : what can be seen of a node.
* `Tree.Alike` : two trees that look the same below a directory.
* `Tree.Beside` : two trees in which a path leads to a directory, alike below it and without links.
  Paths below it lead to the same spots in both (`Tree.Beside.locate`).
* `Tree.Within` : a tree that has changed within an area only.
* `Tree.Onward` : two trees that have gone on beside one another, within an area.
* `BothEnd` : the same failure twice, or two results that belong together.  So end directories
  (`Tree.Beside.ensureDirectory`), files that are opened (`Tree.Beside.openTruncated`) and what is
  written to them (`Tree.Beside.write`).
-/

namespace BenchSweep

/-- A node without the stamp of a file. -/
def Node.unstamped : Node → Node
  | .file _ mode content => .file 0 mode content
  | node => node

@[simp] theorem Node.isDirectory_unstamped (node : Node) :
    node.unstamped.isDirectory = node.isDirectory := by
  cases node <;> rfl

@[simp] theorem Node.isFile_unstamped (node : Node) : node.unstamped.isFile = node.isFile := by
  cases node <;> rfl

@[simp] theorem Tree.way_unstamped (node : Node) : way node.unstamped = way node := by
  cases node <;> rfl

/-- Nodes that differ in nothing that can be seen are equal, or files that hold the same. -/
theorem Node.unstamped_cases {node node' : Node} (h : node.unstamped = node'.unstamped) :
    node = node' ∧ node.isFile = false ∨ ∃ stamp stamp' mode content,
      node = .file stamp mode content ∧ node' = .file stamp' mode content := by
  cases node <;> cases node' <;> simp_all [unstamped, isFile]

/-- The same failure twice, or two results that belong together. -/
inductive BothEnd {ε α β : Type} (R : α → β → Prop) : Except ε α → Except ε β → Prop
  | failed (e : ε) : BothEnd R (.error e) (.error e)
  | done {a : α} {b : β} (h : R a b) : BothEnd R (.ok a) (.ok b)

theorem BothEnd.exists_of_ok {ε α β : Type} {R : α → β → Prop} {x : Except ε α} {y : Except ε β}
    {a : α} (h : BothEnd R x y) (hx : x = .ok a) : ∃ b, y = .ok b ∧ R a b := by
  cases h with
  | failed => cases hx
  | done h =>
      cases hx
      exact ⟨_, rfl, h⟩

theorem BothEnd.error_of_error {ε α β : Type} {R : α → β → Prop} {x : Except ε α} {y : Except ε β}
    {e : ε} (h : BothEnd R x y) (hx : x = .error e) : y = .error e := by
  cases h with
  | failed =>
      cases hx
      rfl
  | done => cases hx

/-! ## Paths below a directory -/

/-- The paths of what is below a directory, where no symbolic link is on the way. -/
inductive Path.Below (dir : Path) (D : Location) : Path → Location → Prop
  | self : Below dir D dir D
  | join {p : Path} {loc : Location} {name : String} (hp : Below dir D p loc)
      (hname : IsComponent name) : Below dir D (p.join name) (name :: loc)

namespace Path.Below

variable {dir p : Path} {D loc : Location}

theorem suffix (h : Below dir D p loc) : D <:+ loc := by
  induction h with
  | self => exact List.suffix_refl D
  | join _ _ ih => exact ih.trans (List.suffix_cons _ _)

theorem isAbsolute (h : Below dir D p loc) : p.isAbsolute = dir.isAbsolute := by
  induction h with
  | self => rfl
  | join _ hname ih => rw [isAbsolute_join _ hname, ih]

/-- The names that lead from the directory to what is below it. -/
theorem components (h : Below dir D p loc) :
    ∃ names, (∀ name ∈ names, IsComponent name) ∧ loc = names.reverse ++ D ∧
      p.components = dir.components ++ names := by
  induction h with
  | self => exact ⟨[], by simp, rfl, by simp⟩
  | @join p loc name _ hname ih =>
      obtain ⟨names, hnames, rfl, hcomponents⟩ := ih
      refine ⟨names ++ [name], ?_, by simp, ?_⟩
      · simpa [or_imp, forall_and] using ⟨hnames, hname⟩
      · rw [components_join p hname, hcomponents, List.append_assoc]

end Path.Below

namespace Tree

variable {t t' t'' u u' u'' : Tree} {dir p : Path} {area area' : Location → Prop} {D loc : Location}
  {name : String} {names rest : List String} {purpose : Purpose} {links links' : Nat}
  {node node' : Node}

/-! ## Walking down -/

/-- What a walk does at a component. -/
theorem walk_component (hname : IsComponent name) (hrest : rest ≠ [""]) :
    t.walk purpose links D (name :: rest) =
      if t.isDirectoryAt D = false then .error .notDirectory
      else if longestName < name.utf8ByteSize then .error .nameTooLong
      else
        match (t.node? (name :: D)).map way with
        | none => if rest = [] then .ok (.vacant (name :: D)) else .error .notFound
        | some (.link target) => t.followLink purpose links D ⟨target⟩ rest
        | some _ => t.walk purpose links (name :: D) rest := by
  obtain ⟨hempty, -, hdot, hdots⟩ := hname
  cases hdir : t.isDirectoryAt D
  case false => simp [walk_eq_descend, descend, hdir]
  by_cases hlong : longestName < name.utf8ByteSize
  case pos => simp [walk_eq_descend, descend, hdir, hempty, hdot, hdots, hlong, hrest]
  have hordinary : IsOrdinary name := ⟨hempty, hdot, hdots, Nat.not_lt.1 hlong⟩
  rw [if_neg (by simp), if_neg hlong, walk_ordinary hdir hordinary fun _ => hrest]
  rcases t.node? (name :: D) with _ | (_ | _ | _ | _) <;> rfl

/-- A walk down from a directory, without links on the way, ends in the same way in all trees
that are alike below it. -/
theorem walk_alike (halike : ∀ loc, D <:+ loc → (t.node? loc).map way = (u.node? loc).map way)
    (hlinks : ∀ loc, D <:+ loc → loc ≠ D → ¬ t.IsLinkAt loc)
    (hnames : ∀ name ∈ names, IsComponent name) :
    t.walk purpose links D names = u.walk purpose links' D names ∧
      ∀ spot, t.walk purpose links D names = .ok spot → spot.location = names.reverse ++ D := by
  induction names generalizing D with
  | nil => simp [Spot.location]
  | cons name rest ih =>
      obtain ⟨hname, hnames⟩ := List.forall_mem_cons.1 hnames
      have hrest : rest ≠ [""] := by
        rintro rfl
        exact (List.forall_mem_singleton.1 hnames).1 rfl
      have hdir : t.isDirectoryAt D = u.isDirectoryAt D := by
        rw [Bool.eq_iff_iff, isDirectoryAt_iff_way, isDirectoryAt_iff_way,
          halike D (List.suffix_refl D)]
      -- what is below the child is below the directory
      have hbelow : ∀ loc, name :: D <:+ loc → D <:+ loc ∧ loc ≠ D := by
        intro loc h
        refine ⟨(List.suffix_cons name D).trans h, ?_⟩
        rintro rfl
        exact absurd h.length_le (by simp)
      obtain ⟨heq, hspot⟩ := ih (fun loc h => halike loc (hbelow loc h).1)
        (fun loc h _ => hlinks loc (hbelow loc h).1 (hbelow loc h).2) hnames
      have hway := halike (name :: D) (List.suffix_cons name D)
      have hlink := hlinks (name :: D) (List.suffix_cons name D) (by simp)
      rw [walk_component hname hrest, walk_component hname hrest, hdir, ← hway, List.reverse_cons,
        List.append_assoc]
      split
      · exact ⟨rfl, by simp⟩
      split
      · exact ⟨rfl, by simp⟩
      cases hnode : (t.node? (name :: D)).map way with
      | none =>
          by_cases hlast : rest = []
          · subst hlast
            simp [Spot.location]
          · simp [hlast]
      | some w =>
          cases w with
          | link target => exact absurd ⟨target, node?_eq_link_iff_way.2 hnode⟩ hlink
          | _ => exact ⟨heq, hspot⟩

/-! ## Two trees -/

/-- Two trees in which the same is seen: they differ in nothing but the stamps of files. -/
structure Alike (t u : Tree) : Prop where
  workingDirectory : u.workingDirectory = t.workingDirectory
  busy : u.busy = t.busy
  nodes : ∀ loc, (u.node? loc).map Node.unstamped = (t.node? loc).map Node.unstamped

/-- Two trees in which a path leads to a directory, alike below it and without links there. -/
structure Beside (dir : Path) (D : Location) (t u : Tree) : Prop where
  left : t.Reaches dir D
  right : u.Reaches dir D
  unlinked : ∀ loc, D <:+ loc → loc ≠ D → ¬ t.IsLinkAt loc
  alike : ∀ loc, D <:+ loc → (t.node? loc).map Node.unstamped = (u.node? loc).map Node.unstamped

theorem Beside.way (h : Beside dir D t u) (hloc : D <:+ loc) :
    (t.node? loc).map way = (u.node? loc).map way := by
  have hview := congrArg (Option.map Tree.way) (h.alike loc hloc)
  simpa [Function.comp_def] using hview

/-- What is at a location below the directory. -/
theorem Beside.node?_cases (h : Beside dir D t u) (hloc : D <:+ loc) :
    (t.node? loc = none ∧ u.node? loc = none) ∨
      (∃ node, t.node? loc = some node ∧ u.node? loc = some node ∧ node.isFile = false) ∨
      ∃ stamp stamp' mode content, t.node? loc = some (.file stamp mode content) ∧
        u.node? loc = some (.file stamp' mode content) := by
  have halike := h.alike loc hloc
  cases ht : t.node? loc with
  | none =>
      rw [ht, Option.map_none, eq_comm, Option.map_eq_none_iff] at halike
      exact Or.inl ⟨rfl, halike⟩
  | some node =>
      rw [ht, Option.map_some, eq_comm, Option.map_eq_some_iff] at halike
      obtain ⟨node', hu, heq⟩ := halike
      right
      rcases Node.unstamped_cases heq.symm with
        ⟨rfl, hfile⟩ | ⟨stamp, stamp', mode, content, rfl, rfl⟩
      · exact Or.inl ⟨node, rfl, hu, hfile⟩
      · exact Or.inr ⟨stamp, stamp', mode, content, rfl, hu⟩

/-- A walk to something below the directory goes on where the path of the directory ends. -/
theorem Reaches.walk_below (h : t.Reaches dir D)
    (hlinks : ∀ loc, D <:+ loc → loc ≠ D → ¬ t.IsLinkAt loc)
    (hnames : ∀ name ∈ names, IsComponent name) (hmake : purpose = .make → names ≠ []) :
    t.walk purpose linkLimit (start dir t.workingDirectory) (dir.components ++ names) =
      t.walk purpose linkLimit D names := by
  refine h.leads.walk_through (fun hpurpose front heq => ?_) fun links =>
    (walk_alike (fun _ _ => rfl) hlinks hnames).1
  -- the last name is not the empty one that stands for a slash
  obtain ⟨name, hname⟩ := List.getLast?_isSome.2 (hmake hpurpose) |> Option.isSome_iff_exists.1
  have hlast := congrArg List.getLast? heq
  rw [List.getLast?_append, hname] at hlast
  obtain rfl : name = "" := by simpa using hlast
  exact (hnames "" (List.mem_of_getLast? hname)).1 rfl

/-- A path below the directory is walked in the same way in both trees, down to its location. -/
theorem Beside.walk (h : Beside dir D t u) (purpose : Purpose) (hp : dir.Below D p loc)
    (hmake : purpose = .make → loc ≠ D) :
    t.walk purpose linkLimit (start p t.workingDirectory) p.components =
        u.walk purpose linkLimit (start p u.workingDirectory) p.components ∧
      ∀ spot, t.walk purpose linkLimit (start p t.workingDirectory) p.components = .ok spot →
        spot.location = loc := by
  obtain ⟨names, hnames, rfl, hcomponents⟩ := hp.components
  have hmake : purpose = .make → names ≠ [] := by
    rintro hpurpose rfl
    exact hmake hpurpose rfl
  have hstart (here : Location) : start p here = start dir here := by
    rw [start, start, hp.isAbsolute]
  have hlinks : ∀ loc, D <:+ loc → loc ≠ D → ¬ u.IsLinkAt loc := by
    rintro loc hloc hne ⟨target, htarget⟩
    refine h.unlinked loc hloc hne ⟨target, node?_eq_link_iff_way.2 ?_⟩
    rw [h.way hloc, node?_eq_link_iff_way.1 htarget]
  rw [hcomponents, hstart, hstart, h.left.walk_below h.unlinked hnames hmake,
    h.right.walk_below hlinks hnames hmake]
  exact walk_alike (fun loc hloc => h.way hloc) h.unlinked hnames

/-- A path below the directory leads to the same spot in both trees. -/
theorem Beside.locate (h : Beside dir D t u) (purpose : Purpose) (hp : dir.Below D p loc)
    (hname : IsComponent name) :
    t.locate purpose (p.join name) = u.locate purpose (p.join name) ∧
      ∀ spot, t.locate purpose (p.join name) = .ok spot → spot.location = name :: loc := by
  have hnames : (p.join name).names = (p.join name).components := by
    rw [Path.names_join p hname, Path.components_join p hname]
  obtain ⟨heq, hspot⟩ := h.walk purpose (hp.join hname) fun _ hloc => by
    have hlength := hp.suffix.length_le
    rw [← hloc] at hlength
    exact absurd hlength (by simp)
  rw [Tree.locate, Tree.locate, walkFrom, walkFrom, hnames, ← heq]
  refine ⟨rfl, fun spot h => ?_⟩
  split at h
  · cases h
  split at h
  · cases h
  · exact hspot spot h

/-- A tree in whose table there are no links has none. -/
theorem not_isLinkAt (h : ∀ row ∈ t.nodes.rows, ¬ t.IsLinkAt row.1) (loc : Location) :
    ¬ t.IsLinkAt loc := by
  rintro ⟨target, htarget⟩
  have hnode := htarget
  rw [node?] at hnode
  split at hnode
  · cases hnode
  · exact h _ (Table.mem_of_get?_eq_some hnode) ⟨target, htarget⟩

/-! ## Changes within an area -/

/-- A tree that has changed within an area only, and leads where it did. -/
structure Within (area : Location → Prop) (t t' : Tree) : Prop where
  larger : Extends t t'
  busy : t'.busy = t.busy
  node? : ∀ loc, ¬ area loc → t'.node? loc = t.node? loc

theorem Within.refl (area : Location → Prop) (t : Tree) : Within area t t :=
  ⟨.refl t, rfl, fun _ _ => rfl⟩

theorem Within.trans (h : Within area t t') (h' : Within area t' t'') : Within area t t'' :=
  ⟨h.larger.trans h'.larger, h'.busy.trans h.busy,
    fun loc hloc => (h'.node? loc hloc).trans (h.node? loc hloc)⟩

theorem Within.mono (h : Within area t t') (hsub : ∀ loc, area loc → area' loc) :
    Within area' t t' :=
  ⟨h.larger, h.busy, fun loc hloc => h.node? loc fun harea => hloc (hsub loc harea)⟩

/-- Two trees that have gone on beside one another, changed within an area only. -/
structure Onward (dir : Path) (D : Location) (area : Location → Prop) (t u t' u' : Tree) :
    Prop where
  beside : Beside dir D t' u'
  left : Within area t t'
  right : Within area u u'

theorem Beside.onward (h : Beside dir D t u) : Onward dir D area t u t u :=
  ⟨h, .refl area t, .refl area u⟩

theorem Onward.trans (h : Onward dir D area t u t' u') (h' : Onward dir D area t' u' t'' u'') :
    Onward dir D area t u t'' u'' :=
  ⟨h'.beside, h.left.trans h'.left, h.right.trans h'.right⟩

/-- A tree in which one location has got a node, which leads where the one before it did. -/
structure Puts (loc : Location) (node : Node) (t t' : Tree) : Prop where
  same : SameBut t t' loc
  busy : t'.busy = t.busy
  now : t'.node? loc = some node
  way : ∀ w, (t.node? loc).map way = some w → way node = w

theorem puts_of_free (hfree : t.node? loc = none) (node : Node) :
    Puts loc node t (t.set loc node) where
  same := t.sameBut_set (ne_nil_of_free hfree) node
  busy := rfl
  now := t.node?_set_self (ne_nil_of_free hfree) node
  way := by simp [hfree]

theorem puts_of_file {stamp mode : Nat} {content : Content}
    (hfile : t.node? loc = some (.file stamp mode content)) (content' : Content) :
    Puts loc (.file stamp mode content') t (t.set loc (.file stamp mode content')) where
  same := t.sameBut_set (ne_nil_of_file hfile) _
  busy := rfl
  now := t.node?_set_self (ne_nil_of_file hfile) _
  way := by simp [hfile, Tree.way]

theorem puts_createAt (hfree : t.node? loc = none) (mode : Nat) :
    Puts loc (.file t.nextStamp mode (.bytes [])) t (t.createAt loc mode).1 where
  same := sameBut_createAt (ne_nil_of_free hfree) mode
  busy := rfl
  now := node?_createAt_self (ne_nil_of_free hfree) mode
  way := by simp [hfree]

theorem Puts.extends (h : Puts loc node t t') : Extends t t' := by
  refine h.same.extends fun w hw => ?_
  rw [h.now, Option.map_some, h.way w hw]

theorem Puts.within (h : Puts loc node t t') (harea : area loc) : Within area t t' :=
  ⟨h.extends, h.busy, fun other hother => h.same.node? other fun heq => hother (heq ▸ harea)⟩

/-- Two trees stay alike if both get the same node, which is no link. -/
theorem Beside.puts (h : Beside dir D t u) (harea : area loc)
    (ht : Puts loc node t t') (hu : Puts loc node' u u')
    (hnode : node.unstamped = node'.unstamped) (hlink : ∀ target, node ≠ .link target) :
    Onward dir D area t u t' u' where
  beside := by
    refine ⟨h.left.mono ht.extends, h.right.mono hu.extends, fun other hother hne => ?_,
      fun other hother => ?_⟩
    · by_cases heq : other = loc
      · rintro ⟨target, htarget⟩
        rw [heq, ht.now] at htarget
        exact hlink target (Option.some.inj htarget)
      · rintro ⟨target, htarget⟩
        rw [ht.same.node? other heq] at htarget
        exact h.unlinked other hother hne ⟨target, htarget⟩
    · by_cases heq : other = loc
      · rw [heq, ht.now, hu.now, Option.map_some, Option.map_some, hnode]
      · rw [ht.same.node? other heq, hu.same.node? other heq, h.alike other hother]
  left := ht.within harea
  right := hu.within harea

/-! ## Looking -/

/-- What is found at a path below the directory is alike. -/
theorem Beside.stat? (h : Beside dir D t u) (hp : dir.Below D p loc) (hname : IsComponent name) :
    (t.stat? (p.join name)).map Node.unstamped = (u.stat? (p.join name)).map Node.unstamped := by
  obtain ⟨heq, hspot⟩ := h.locate .use hp hname
  rw [Tree.stat?, Tree.stat?, ← heq]
  split
  · rfl
  cases hlocate : t.locate .use (p.join name) with
  | error e => rfl
  | ok spot =>
      cases spot with
      | vacant other => rfl
      | found other =>
          obtain rfl : other = name :: loc := hspot _ hlocate
          exact h.alike _ (hp.join hname).suffix

theorem Beside.any_stat? {f : Node → Bool} (h : Beside dir D t u) (hp : dir.Below D p loc)
    (hname : IsComponent name) (hf : ∀ node, f node.unstamped = f node) :
    (t.stat? (p.join name)).any f = (u.stat? (p.join name)).any f := by
  have hany (found : Option Node) : found.any f = (found.map Node.unstamped).any f := by
    cases found <;> simp [hf]
  rw [hany, h.stat? hp hname, ← hany]

theorem Beside.readText (h : Beside dir D t u) (hp : dir.Below D p loc)
    (hname : IsComponent name) : t.readText (p.join name) = u.readText (p.join name) := by
  obtain ⟨heq, hspot⟩ := h.locate .use hp hname
  rw [Tree.readText, Tree.readText, ← heq]
  split
  · rfl
  cases hlocate : t.locate .use (p.join name) with
  | error e => rfl
  | ok spot =>
      cases spot with
      | vacant other => rfl
      | found other =>
          obtain rfl : other = name :: loc := hspot _ hlocate
          rcases h.node?_cases (hp.join hname).suffix with
            ⟨ht, hu⟩ | ⟨node, ht, hu, -⟩ | ⟨stamp, stamp', mode, content, ht, hu⟩ <;>
            simp only [ht, hu]

/-- The recipe of the directory is the same in both trees. -/
theorem Beside.load (h : Beside dir D t u) : Recipe.load t dir = Recipe.load u dir := by
  have hname : IsComponent Recipe.fileName := by decide
  have hfile : t.isFile (dir.join Recipe.fileName) = u.isFile (dir.join Recipe.fileName) :=
    h.any_stat? .self hname Node.isFile_unstamped
  simp only [Recipe.load, hfile, h.readText .self hname]

/-! ## Directories -/

/-- A directory is made in both trees, or refused in both for the same reason. -/
theorem Beside.makeDirectory (h : Beside dir D t u) (hp : dir.Below D p loc)
    (hname : IsComponent name) (harea : area (name :: loc)) :
    BothEnd (Onward dir D area t u) (t.makeDirectory (p.join name))
      (u.makeDirectory (p.join name)) := by
  obtain ⟨heq, hspot⟩ := h.walk .use hp (by simp)
  have hwalk : t.walkFrom .use (p.join name) p.components =
      u.walkFrom .use (p.join name) p.components := by
    rw [walkFrom, walkFrom, start_join p hname, start_join p hname, heq]
  have hfound (here : Location) (hhere : t.walkFrom .use (p.join name) p.components =
      .ok (.found here)) : here = loc := by
    rw [walkFrom, start_join p hname] at hhere
    split at hhere
    · cases hhere
    split at hhere
    · cases hhere
    · exact hspot _ hhere
  rw [Tree.makeDirectory, Tree.makeDirectory]
  split
  · exact .failed _
  rw [Path.filter_names, Path.components_join p hname]
  dsimp only
  rw [List.dropLast_concat, List.getLast?_concat, ← hwalk]
  cases hwalk : t.walkFrom .use (p.join name) p.components with
  | error e => exact .failed _
  | ok spot =>
      cases spot with
      | vacant other => exact .failed _
      | found here =>
          obtain rfl := hfound here hwalk
          have hdir : t.isDirectoryAt here = u.isDirectoryAt here := by
            rw [Bool.eq_iff_iff, isDirectoryAt_iff_way, isDirectoryAt_iff_way, h.way hp.suffix]
          have hnode : (t.node? (name :: here)).isSome = (u.node? (name :: here)).isSome := by
            rw [← Option.isSome_map, h.alike _ (hp.join hname).suffix, Option.isSome_map]
          simp only [hdir, hnode]
          split
          · exact .failed _
          split
          · exact .failed _
          split
          · exact .failed _
          split
          · exact .failed _
          next hfree =>
            have hfree' : t.node? (name :: here) = none := by simpa [← hnode] using hfree
            have hfree : u.node? (name :: here) = none := by simpa using hfree
            exact .done (h.puts harea (puts_of_free hfree' _) (puts_of_free hfree _) rfl (by simp))

/-! ## Logs -/

end Tree

/-- Two handles on the same device, or on files within an area that hold the same. -/
inductive Handle.Alike (area : Location → Prop) (t u : Tree) : Handle → Handle → Prop
  | device {kind : Device} {offset : Nat} :
      Alike area t u ⟨.device kind, offset⟩ ⟨.device kind, offset⟩
  | file {loc : Location} {stamp stamp' mode offset : Nat} {content : Content}
      (harea : area loc) (hleft : t.node? loc = some (.file stamp mode content))
      (hright : u.node? loc = some (.file stamp' mode content)) :
      Alike area t u ⟨.file loc stamp, offset⟩ ⟨.file loc stamp', offset⟩

namespace Tree

variable {t t' u u' : Tree} {dir p : Path} {area : Location → Prop} {D loc : Location}
  {name : String} {handle handle' : Handle}

/-- A file is opened in both trees, or refused in both for the same reason. -/
theorem Beside.openTruncated (h : Beside dir D t u) (hp : dir.Below D p loc)
    (hname : IsComponent name) (harea : area (name :: loc)) :
    BothEnd (fun x y => Onward dir D area t u x.1 y.1 ∧ Handle.Alike area x.1 y.1 x.2 y.2)
      (t.openTruncated (p.join name)) (u.openTruncated (p.join name)) := by
  obtain ⟨heq, hspot⟩ := h.locate .make hp hname
  rw [Tree.openTruncated, Tree.openTruncated, ← heq]
  split
  · exact .failed _
  cases hlocate : t.locate .make (p.join name) with
  | error e => exact .failed _
  | ok spot =>
      obtain hspot := hspot spot hlocate
      cases spot with
      | vacant other =>
          obtain rfl : other = name :: loc := hspot
          have ht := puts_createAt (node?_eq_none_of_vacant hlocate) resultMode
          have hu := puts_createAt (node?_eq_none_of_vacant (heq ▸ hlocate)) resultMode
          exact .done ⟨h.puts harea ht hu rfl (by simp), .file harea ht.now hu.now⟩
      | found other =>
          obtain rfl : other = name :: loc := hspot
          rcases h.node?_cases (hp.join hname).suffix with
            ⟨ht, hu⟩ | ⟨node, ht, hu, hfile⟩ | ⟨stamp, stamp', mode, content, ht, hu⟩
          · simp only [ht, hu]
            exact .failed _
          · simp only [ht, hu]
            cases node with
            | file stamp mode content => cases hfile
            | device kind => exact .done ⟨h.onward, .device⟩
            | _ => exact .failed _
          · simp only [ht, hu]
            have ht' := puts_of_file ht (.bytes [])
            have hu' := puts_of_file hu (.bytes [])
            exact .done ⟨h.puts harea ht' hu' rfl (by simp), .file harea ht'.now hu'.now⟩

/-- The same is written to both files, or refused by both. -/
theorem Beside.write (h : Beside dir D t u) (hhandle : Handle.Alike area t u handle handle')
    (data : List UInt8) :
    BothEnd (fun x y => Onward dir D area t u x.1 y.1 ∧ Handle.Alike area x.1 y.1 x.2 y.2)
      (t.write handle data) (u.write handle' data) := by
  cases hhandle with
  | @device kind offset =>
      cases kind with
      | null => exact .done ⟨h.onward, .device⟩
      | full =>
          rw [Tree.write, Tree.write]
          dsimp only
          split
          · exact .done ⟨h.onward, .device⟩
          · exact .failed _
  | @file loc stamp stamp' mode offset content harea hleft hright =>
      rw [Tree.write, Tree.write]
      dsimp only
      simp only [hleft, hright, decide_true, Bool.true_and]
      split
      · have ht := puts_of_file hleft (.bytes (overwrite content.data offset data))
        have hu := puts_of_file hright (.bytes (overwrite content.data offset data))
        exact .done ⟨h.puts harea ht hu rfl (by simp), .file harea ht.now hu.now⟩
      · exact .done ⟨h.onward, .file harea hleft hright⟩

end Tree

/-! ## Archives -/

section

variable {t t' u u' : Tree} {dir p : Path} {area : Location → Prop} {D loc : Location}
  {name : String}

/-- A directory is seen to in both trees, or in none of them for the same reason. -/
theorem Tree.Beside.ensureDirectory (h : Beside dir D t u) (hp : dir.Below D p loc)
    (hname : IsComponent name) (harea : area (name :: loc)) :
    BothEnd (Onward dir D area t u) (BenchSweep.ensureDirectory t (p.join name))
      (BenchSweep.ensureDirectory u (p.join name)) := by
  have hexists : t.pathExists (p.join name) = u.pathExists (p.join name) := by
    have hany := h.any_stat? (f := fun _ => true) hp hname fun _ => rfl
    simpa [Tree.pathExists] using hany
  have hdir : t.isDirectory (p.join name) = u.isDirectory (p.join name) :=
    h.any_stat? hp hname Node.isDirectory_unstamped
  rw [ensureDirectory_eq, ensureDirectory_eq, hexists, hdir]
  split
  · split
    · exact .done h.onward
    · exact .failed _
  · have hmake := h.makeDirectory hp hname harea
    generalize t.makeDirectory _ = made, u.makeDirectory _ = made' at hmake ⊢
    cases hmake with
    | failed e => exact .failed _
    | done honward => exact .done honward

/-- Handles on files stay alike when directories are made. -/
theorem Handle.Alike.ensureDirectory {handle handle' : Handle}
    (h : Handle.Alike area t u handle handle') (ht : BenchSweep.ensureDirectory t p = .ok t')
    (hu : BenchSweep.ensureDirectory u p = .ok u') : Handle.Alike area t' u' handle handle' := by
  -- a directory is made at a free location, where no file is
  have hkept {t t' : Tree} {loc : Location} {node : Node}
      (hmade : BenchSweep.ensureDirectory t p = .ok t') (hnode : t.node? loc = some node) :
      t'.node? loc = some node := by
    rcases (ensureDirectory_cases hmade).2 with rfl | ⟨other, mode, hfree, rfl⟩
    · exact hnode
    · rw [Tree.node?_set t _ (Tree.ne_nil_of_free hfree), if_neg, hnode]
      rintro rfl
      cases hfree.symm.trans hnode
  cases h with
  | device => exact .device
  | file harea hleft hright => exact .file harea (hkept ht hleft) (hkept hu hright)

end

end BenchSweep
