import BenchSweep.Files.Locate
import BenchSweep.Proofs.Files.Component

/-!
# Walking below a directory

Where a path leads does not depend on how the directory above it was found, nor on what
is made elsewhere in the meantime.

* `Tree.Arrives` : the walks that end at a spot, one step after the other.
* `Tree.Leads` : those that end at a node.
* `Tree.Reaches` : a path that leads to a directory.
* `Tree.Reaches.locate_join` : where the path of a component of that directory leads; if it is a
  directory itself, `Tree.Reaches.join_iff` says which.
* `Tree.Extends` : a tree in which nothing was removed and no link was moved; what is
  reached in the smaller tree is reached in the larger one (`Tree.Reaches.mono`), and so is
  what was made since at a free name (`Tree.Extends.locate`).
-/

namespace BenchSweep

/-- The location of a spot. -/
def Spot.location : Spot → Location
  | found loc => loc
  | vacant loc => loc

namespace Tree

/-! ## Steps of a walk -/

/-- Is there a symbolic link at the location? -/
def IsLinkAt (t : Tree) (loc : Location) : Prop := ∃ target, t.node? loc = some (.link target)

instance (t : Tree) (loc : Location) : Decidable (t.IsLinkAt loc) :=
  match h : t.node? loc with
  | some (.link target) => .isTrue ⟨target, h⟩
  | some (.directory _) => .isFalse fun ⟨_, hlink⟩ => nomatch h.symm.trans hlink
  | some (.file ..) => .isFalse fun ⟨_, hlink⟩ => nomatch h.symm.trans hlink
  | some (.device _) => .isFalse fun ⟨_, hlink⟩ => nomatch h.symm.trans hlink
  | none => .isFalse fun ⟨_, hlink⟩ => nomatch h.symm.trans hlink

/-- May a node have the name? -/
def IsOrdinary (name : String) : Prop :=
  name ≠ "" ∧ name ≠ "." ∧ name ≠ ".." ∧ name.utf8ByteSize ≤ longestName

/-- What a walk does at a link. -/
def followLink (t : Tree) (purpose : Purpose) :
    Nat → Location → Path → List String → Except Errno Spot
  | 0 => fun _ _ _ => .error .tooManyLinks
  | links + 1 => fun here target rest =>
      t.walk purpose links (start target here) (target.names ++ rest)

/-- The walks that end at a spot, with the number of links that they may follow. -/
inductive Arrives (t : Tree) (purpose : Purpose) : Nat → Location → List String → Spot → Prop
  | stay {links here} : Arrives t purpose links here [] (.found here)
  | free {links here name} (hdir : t.isDirectoryAt here) (hname : IsOrdinary name)
      (hnode : t.node? (name :: here) = none) :
      Arrives t purpose links here [name] (.vacant (name :: here))
  | skip {links here name rest spot} (hdir : t.isDirectoryAt here) (hname : name = "" ∨ name = ".")
      (h : Arrives t purpose links here rest spot) :
      Arrives t purpose links here (name :: rest) spot
  | up {links here rest spot} (hdir : t.isDirectoryAt here)
      (h : Arrives t purpose links here.tail rest spot) :
      Arrives t purpose links here (".." :: rest) spot
  | down {links here name rest spot node} (hdir : t.isDirectoryAt here) (hname : IsOrdinary name)
      (hmake : purpose = .make → rest ≠ [""]) (hnode : t.node? (name :: here) = some node)
      (hlink : ¬ t.IsLinkAt (name :: here)) (h : Arrives t purpose links (name :: here) rest spot) :
      Arrives t purpose links here (name :: rest) spot
  | follow {links here name rest spot target} (hdir : t.isDirectoryAt here)
      (hname : IsOrdinary name) (hmake : purpose = .make → rest ≠ [""])
      (hnode : t.node? (name :: here) = some (.link target))
      (h : Arrives t purpose links (start ⟨target⟩ here) (Path.names ⟨target⟩ ++ rest) spot) :
      Arrives t purpose (links + 1) here (name :: rest) spot

/-- The walks that end at a node, with the number of links that they may follow. -/
inductive Leads (t : Tree) : Nat → Location → List String → Location → Prop
  | stay {links here} : Leads t links here [] here
  | skip {links here name rest D} (hdir : t.isDirectoryAt here) (hname : name = "" ∨ name = ".")
      (h : Leads t links here rest D) : Leads t links here (name :: rest) D
  | up {links here rest D} (hdir : t.isDirectoryAt here) (h : Leads t links here.tail rest D) :
      Leads t links here (".." :: rest) D
  | down {links here name rest D node} (hdir : t.isDirectoryAt here) (hname : IsOrdinary name)
      (hnode : t.node? (name :: here) = some node) (hlink : ¬ t.IsLinkAt (name :: here))
      (h : Leads t links (name :: here) rest D) : Leads t links here (name :: rest) D
  | follow {links here name rest D target} (hdir : t.isDirectoryAt here)
      (hname : IsOrdinary name) (hnode : t.node? (name :: here) = some (.link target))
      (h : Leads t links (start ⟨target⟩ here) (Path.names ⟨target⟩ ++ rest) D) :
      Leads t (links + 1) here (name :: rest) D

variable {t t' : Tree} {D here loc : Location} {name : String} {names rest : List String}
  {links : Nat} {purpose : Purpose} {target : String} {node : Node} {spot : Spot}

theorem walk_eq_descend (t : Tree) (purpose : Purpose) (links : Nat) :
    t.walk purpose links = descend t purpose (t.followLink purpose links) := by
  cases links <;> rfl

@[simp] theorem walk_nil : t.walk purpose links here [] = .ok (.found here) := by
  rw [walk_eq_descend]
  rfl

theorem walk_skip (hdir : t.isDirectoryAt here) (hname : name = "" ∨ name = ".") :
    t.walk purpose links here (name :: rest) = t.walk purpose links here rest := by
  rw [walk_eq_descend, descend]
  rcases hname with rfl | rfl <;> simp [hdir]

theorem walk_up (hdir : t.isDirectoryAt here) :
    t.walk purpose links here (".." :: rest) = t.walk purpose links here.tail rest := by
  rw [walk_eq_descend, descend]
  simp [hdir]

/-- A name of a node is looked up, unless it has to be free and is followed by a slash. -/
theorem walk_ordinary (hdir : t.isDirectoryAt here) (hname : IsOrdinary name)
    (hmake : purpose = .make → rest ≠ [""]) :
    t.walk purpose links here (name :: rest) =
      match t.node? (name :: here) with
      | none => if rest = [] then .ok (.vacant (name :: here)) else .error .notFound
      | some (.link target) => t.followLink purpose links here ⟨target⟩ rest
      | some _ => t.walk purpose links (name :: here) rest := by
  obtain ⟨hempty, hdot, hdots, hlength⟩ := hname
  have hcheck : ¬ (purpose = .make ∧ rest = [""]) := fun h => hmake h.1 h.2
  rw [walk_eq_descend, descend]
  cases hnode : t.node? (name :: here) with
  | none => simp [hdir, hempty, hdot, hdots, Nat.not_lt.2 hlength, hcheck]
  | some node => cases node <;> simp [hdir, hempty, hdot, hdots, Nat.not_lt.2 hlength, hcheck]

theorem walk_down (hdir : t.isDirectoryAt here) (hname : IsOrdinary name)
    (hmake : purpose = .make → rest ≠ [""]) (hnode : t.node? (name :: here) = some node)
    (hlink : ¬ t.IsLinkAt (name :: here)) :
    t.walk purpose links here (name :: rest) = t.walk purpose links (name :: here) rest := by
  rw [walk_ordinary hdir hname hmake, hnode]
  cases node with
  | link target => exact absurd ⟨target, hnode⟩ hlink
  | _ => rfl

theorem walk_follow (hdir : t.isDirectoryAt here) (hname : IsOrdinary name)
    (hmake : purpose = .make → rest ≠ [""])
    (hnode : t.node? (name :: here) = some (.link target)) :
    t.walk purpose (links + 1) here (name :: rest) =
      t.walk purpose links (start ⟨target⟩ here) (Path.names ⟨target⟩ ++ rest) := by
  rw [walk_ordinary hdir hname hmake, hnode]
  rfl

/-! ## Walks that end at a spot -/

/-- A walk in steps is a walk. -/
theorem Arrives.walk (h : Arrives t purpose links here names spot) :
    t.walk purpose links here names = .ok spot := by
  induction h with
  | stay => exact walk_nil
  | free hdir hname hnode => rw [walk_ordinary hdir hname (by simp), hnode]; rfl
  | skip hdir hname _ ih => rwa [walk_skip hdir hname]
  | up hdir _ ih => rwa [walk_up hdir]
  | down hdir hname hmake hnode hlink _ ih => rwa [walk_down hdir hname hmake hnode hlink]
  | follow hdir hname hmake hnode _ ih => rwa [walk_follow hdir hname hmake hnode]

/-- What a walk that ends well comes by first: a name that asks for no node, or one that a node
may have. -/
theorem walk_cons_cases (h : t.walk purpose links here (name :: rest) = .ok spot) :
    t.isDirectoryAt here ∧ ((name = "" ∨ name = ".") ∨ name = ".." ∨
      IsOrdinary name ∧ (purpose = .make → rest ≠ [""])) := by
  cases hdir : t.isDirectoryAt here with
  | false =>
      rw [walk_eq_descend, descend] at h
      simp [hdir] at h
  | true =>
      refine ⟨rfl, ?_⟩
      by_cases hskip : name = "" ∨ name = "."
      · exact Or.inl hskip
      by_cases hdots : name = ".."
      · exact Or.inr (Or.inl hdots)
      by_cases hslash : purpose = .make ∧ rest = [""]
      · rw [walk_eq_descend, descend] at h
        simp [hdir, not_or.1 hskip, hdots, hslash] at h
      by_cases hlong : longestName < name.utf8ByteSize
      · rw [walk_eq_descend, descend] at h
        simp [hdir, not_or.1 hskip, hdots, hslash, hlong] at h
      obtain ⟨hempty, hdot⟩ := not_or.1 hskip
      exact Or.inr (Or.inr ⟨⟨hempty, hdot, hdots, Nat.not_lt.1 hlong⟩,
        fun hmake hrest => hslash ⟨hmake, hrest⟩⟩)

/-- A walk that ends well is one in steps.  The induction is on the links that are left, and
within them on the names. -/
theorem arrives_of_walk (h : t.walk purpose links here names = .ok spot) :
    Arrives t purpose links here names spot := by
  induction links using Nat.strongRecOn generalizing here names with
  | ind links ihlinks =>
      induction names generalizing here with
      | nil =>
          cases walk_nil.symm.trans h
          exact .stay
      | cons name rest ih =>
          obtain ⟨hdir, hskip | rfl | ⟨hname, hmake⟩⟩ := walk_cons_cases h
          · rw [walk_skip hdir hskip] at h
            exact .skip hdir hskip (ih h)
          · rw [walk_up hdir] at h
            exact .up hdir (ih h)
          cases hnode : t.node? (name :: here) with
          | none =>
              -- a free name is the last one
              rw [walk_ordinary hdir hname hmake, hnode] at h
              dsimp only at h
              split at h
              · next hrest =>
                  cases h
                  subst hrest
                  exact .free hdir hname hnode
              · cases h
          | some node =>
              by_cases hlink : t.IsLinkAt (name :: here)
              · obtain ⟨target, hlink⟩ := hlink
                cases links with
                | zero =>
                    -- no link may be followed any more, so the walk fails
                    rw [walk_ordinary hdir hname hmake, hlink] at h
                    cases h
                | succ links =>
                    rw [walk_follow hdir hname hmake hlink] at h
                    exact .follow hdir hname hmake hlink (ihlinks links (Nat.lt_succ_self links) h)
              · rw [walk_down hdir hname hmake hnode hlink] at h
                exact .down hdir hname hmake hnode hlink (ih h)

/-- A free name is none of a node. -/
theorem Arrives.node?_eq_none (h : Arrives t purpose links here names (.vacant loc)) :
    t.node? loc = none := by
  generalize hspot : Spot.vacant loc = spot at h
  induction h with
  | stay => cases hspot
  | free _ _ hnode =>
      cases hspot
      exact hnode
  | skip _ _ _ ih => exact ih hspot
  | up _ _ ih => exact ih hspot
  | down _ _ _ _ _ _ ih => exact ih hspot
  | follow _ _ _ _ _ ih => exact ih hspot

/-! ## Walks that end at a node -/

/-- Whatever its purpose, a walk that ends at a node leads there. -/
theorem Arrives.leads (h : Arrives t purpose links here names (.found D)) :
    Leads t links here names D := by
  generalize hspot : Spot.found D = spot at h
  induction h with
  | stay =>
      cases hspot
      exact .stay
  | free => cases hspot
  | skip hdir hname _ ih => exact .skip hdir hname (ih hspot)
  | up hdir _ ih => exact .up hdir (ih hspot)
  | down hdir hname _ hnode hlink _ ih => exact .down hdir hname hnode hlink (ih hspot)
  | follow hdir hname _ hnode _ ih => exact .follow hdir hname hnode (ih hspot)

theorem Leads.arrives (h : Leads t links here names D) :
    Arrives t .use links here names (.found D) := by
  induction h with
  | stay => exact .stay
  | skip hdir hname _ ih => exact .skip hdir hname ih
  | up hdir _ ih => exact .up hdir ih
  | down hdir hname hnode hlink _ ih => exact .down hdir hname (by simp) hnode hlink ih
  | follow hdir hname hnode _ ih => exact .follow hdir hname (by simp) hnode ih

theorem Leads.walk (h : Leads t links here names D) :
    t.walk .use links here names = .ok (.found D) :=
  h.arrives.walk

theorem leads_of_walk (h : t.walk .use links here names = .ok (.found D)) :
    Leads t links here names D :=
  (arrives_of_walk h).leads

/-- The paths that a tree leads to a spot are those that the system takes, with a walk that ends
there. -/
theorem locate_eq_ok_iff {p : Path} :
    t.locate purpose p = .ok spot ↔ p.text ≠ "" ∧ p.text.utf8ByteSize < pathLimit ∧
      Arrives t purpose linkLimit (start p t.workingDirectory) p.names spot := by
  rw [locate, walkFrom]
  by_cases hempty : p.text = ""
  · simp [hempty]
  by_cases hlong : pathLimit ≤ p.text.utf8ByteSize
  · simp [hempty, hlong, Nat.not_lt.2 hlong]
  · rw [if_neg hempty, if_neg hlong]
    exact ⟨fun h => ⟨hempty, Nat.not_le.1 hlong, arrives_of_walk h⟩, fun h => h.2.2.walk⟩

/-! ## Going on from a directory -/

/-- Where a last name leads in a directory in which it is no link. -/
def child (t : Tree) (dir : Location) (name : String) : Except Errno Spot :=
  if longestName < name.utf8ByteSize then .error .nameTooLong
  else if (t.node? (name :: dir)).isSome then .ok (.found (name :: dir))
  else .ok (.vacant (name :: dir))

theorem walk_child (hdir : t.isDirectoryAt D) (hname : IsComponent name)
    (hlink : ¬ t.IsLinkAt (name :: D)) : t.walk purpose links D [name] = t.child D name := by
  obtain ⟨hempty, -, hdot, hdots⟩ := hname
  unfold child
  by_cases hlong : longestName < name.utf8ByteSize
  · rw [walk_eq_descend, descend]
    simp [hdir, hempty, hdot, hdots, hlong]
  · have hname : IsOrdinary name := ⟨hempty, hdot, hdots, Nat.not_lt.1 hlong⟩
    rw [if_neg hlong]
    cases hnode : t.node? (name :: D) with
    | none =>
        rw [walk_ordinary hdir hname (by simp), hnode]
        rfl
    | some node =>
        rw [walk_down hdir hname (by simp) hnode hlink, walk_nil]
        rfl

/-- A walk that comes through a location goes on as if it had started there. -/
theorem Leads.walk_through {last : Except Errno Spot} (h : Leads t links here names D)
    (hslash : purpose = .make → ∀ front, front ++ rest ≠ [""])
    (hlast : ∀ links, t.walk purpose links D rest = last) :
    t.walk purpose links here (names ++ rest) = last := by
  induction h with
  | stay => exact hlast _
  | skip hhere hskip _ ih =>
      rw [List.cons_append, walk_skip hhere hskip]
      exact ih hlast
  | up hhere _ ih =>
      rw [List.cons_append, walk_up hhere]
      exact ih hlast
  | down hhere hfirst hnode hnone _ ih =>
      rw [List.cons_append, walk_down hhere hfirst (fun hmake => hslash hmake _) hnode hnone]
      exact ih hlast
  | follow hhere hfirst hnode _ ih =>
      rw [List.cons_append, walk_follow hhere hfirst (fun hmake => hslash hmake _) hnode,
        ← List.append_assoc]
      exact ih hlast

theorem Leads.walk_concat {last : Except Errno Spot} (h : Leads t links here names D)
    (hname : name ≠ "") (hlast : ∀ links, t.walk purpose links D [name] = last) :
    t.walk purpose links here (names ++ [name]) = last := by
  refine h.walk_through (fun _ front heq => hname ?_) hlast
  -- the name behind the others is not the empty one that stands for a slash
  have hlast := congrArg List.getLast? heq
  rw [List.getLast?_concat] at hlast
  exact Option.some.inj hlast

theorem Leads.walk_append (h : Leads t links here names D) (hdir : t.isDirectoryAt D)
    (hname : IsComponent name) (hlink : ¬ t.IsLinkAt (name :: D)) :
    t.walk purpose links here (names ++ [name]) = t.child D name :=
  h.walk_concat hname.1 fun _ => walk_child hdir hname hlink

/-- A slash at the end of a path may be left out. -/
theorem Leads.of_slash (h : Leads t links here (names ++ [""]) D) : Leads t links here names D := by
  -- a step takes a name, so the empty one stays behind until it is the only one left
  generalize hall : names ++ [""] = all at h
  induction h generalizing names with
  | stay => simp at hall
  | skip hdir hskip h ih =>
      cases names with
      | nil =>
          obtain ⟨-, rfl⟩ := List.cons.inj hall
          exact h
      | cons name names =>
          obtain ⟨rfl, rfl⟩ := List.cons.inj hall
          exact .skip hdir hskip (ih rfl)
  | up hdir _ ih =>
      cases names with
      | nil => exact absurd (List.cons.inj hall).1 (by decide)
      | cons name names =>
          obtain ⟨rfl, rfl⟩ := List.cons.inj hall
          exact .up hdir (ih rfl)
  | down hdir hname hnode hlink _ ih =>
      cases names with
      | nil => exact absurd (List.cons.inj hall).1.symm hname.1
      | cons name names =>
          obtain ⟨rfl, rfl⟩ := List.cons.inj hall
          exact .down hdir hname hnode hlink (ih rfl)
  | follow hdir hname hnode _ ih =>
      cases names with
      | nil => exact absurd (List.cons.inj hall).1.symm hname.1
      | cons name names =>
          obtain ⟨rfl, rfl⟩ := List.cons.inj hall
          exact .follow hdir hname hnode (ih (List.append_assoc ..))

/-- A walk that goes on comes by a directory. -/
theorem Leads.of_append {front : List String} (h : Leads t links here (front ++ rest) loc)
    (hrest : rest ≠ []) :
    ∃ E, Leads t links here front E ∧ t.isDirectoryAt E := by
  generalize hall : front ++ rest = all at h
  induction h generalizing front with
  | stay => exact absurd (List.append_eq_nil_iff.1 hall).2 hrest
  | skip hdir hskip h ih =>
      cases front with
      | nil => exact ⟨_, .stay, hdir⟩
      | cons first front =>
          obtain ⟨rfl, rfl⟩ := List.cons.inj hall
          obtain ⟨E, hE, hdirE⟩ := ih rfl
          exact ⟨E, .skip hdir hskip hE, hdirE⟩
  | up hdir h ih =>
      cases front with
      | nil => exact ⟨_, .stay, hdir⟩
      | cons first front =>
          obtain ⟨rfl, rfl⟩ := List.cons.inj hall
          obtain ⟨E, hE, hdirE⟩ := ih rfl
          exact ⟨E, .up hdir hE, hdirE⟩
  | down hdir hname hnode hlink h ih =>
      cases front with
      | nil => exact ⟨_, .stay, hdir⟩
      | cons first front =>
          obtain ⟨rfl, rfl⟩ := List.cons.inj hall
          obtain ⟨E, hE, hdirE⟩ := ih rfl
          exact ⟨E, .down hdir hname hnode hlink hE, hdirE⟩
  | follow hdir hname hnode h ih =>
      cases front with
      | nil => exact ⟨_, .stay, hdir⟩
      | cons first front =>
          obtain ⟨rfl, rfl⟩ := List.cons.inj hall
          obtain ⟨E, hE, hdirE⟩ := ih (List.append_assoc ..)
          exact ⟨E, .follow hdir hname hnode hE, hdirE⟩

/-! ## Larger trees -/

/-- The kinds of nodes, as far as walks tell them apart. -/
inductive Way
  | directory
  | link (target : String)
  | leaf

/-- What a walk notices of a node. -/
def way : Node → Way
  | .directory _ => .directory
  | .link target => .link target
  | .file .. => .leaf
  | .device _ => .leaf

/-- A tree in which nothing is gone and everything leads where it did. -/
structure Extends (t t' : Tree) : Prop where
  workingDirectory : t'.workingDirectory = t.workingDirectory
  nodes : ∀ loc w, (t.node? loc).map way = some w → (t'.node? loc).map way = some w

theorem Extends.refl (t : Tree) : Extends t t := ⟨rfl, fun _ _ h => h⟩

theorem Extends.trans {t'' : Tree} (h : Extends t t') (h' : Extends t' t'') : Extends t t'' :=
  ⟨h'.workingDirectory.trans h.workingDirectory, fun loc w hw => h'.nodes loc w (h.nodes loc w hw)⟩

theorem isDirectoryAt_iff_way : t.isDirectoryAt loc ↔ (t.node? loc).map way = some .directory := by
  unfold isDirectoryAt
  cases t.node? loc with
  | none => simp
  | some node => cases node <;> simp [Node.isDirectory, way]

theorem node?_eq_link_iff_way :
    t.node? loc = some (.link target) ↔ (t.node? loc).map way = some (.link target) := by
  cases t.node? loc with
  | none => simp
  | some node => cases node <;> simp [way]

theorem Extends.isDirectoryAt (h : Extends t t') (hdir : t.isDirectoryAt loc) :
    t'.isDirectoryAt loc :=
  isDirectoryAt_iff_way.2 (h.nodes loc _ (isDirectoryAt_iff_way.1 hdir))

/-- A node that is there still is, if perhaps another one, and is a link only if it was one. -/
theorem Extends.exists_node (h : Extends t t') (hnode : t.node? loc = some node)
    (hlink : ¬ t.IsLinkAt loc) : ∃ node', t'.node? loc = some node' ∧ ¬ t'.IsLinkAt loc := by
  have hway := h.nodes loc _ (congrArg (Option.map way) hnode)
  obtain ⟨node', hnode', heq⟩ := Option.map_eq_some_iff.1 hway
  refine ⟨node', hnode', ?_⟩
  rintro ⟨target, htarget⟩
  rw [hnode', Option.some.injEq] at htarget
  subst htarget
  apply hlink
  refine ⟨target, node?_eq_link_iff_way.2 ?_⟩
  rw [hnode, Option.map_some, ← heq]
  rfl

/-- A walk ends where it did, and at a free name it finds what has been made there since. -/
theorem Extends.arrives (h : Extends t t') (harrives : Arrives t purpose links here names spot)
    (hmade : ∀ loc, spot = .vacant loc → ∃ node, t'.node? loc = some node ∧ ¬ t'.IsLinkAt loc) :
    Arrives t' purpose links here names (.found spot.location) := by
  induction harrives with
  | stay => exact .stay
  | free hdir hname _ =>
      obtain ⟨node, hnode, hlink⟩ := hmade _ rfl
      exact .down (h.isDirectoryAt hdir) hname (by simp) hnode hlink .stay
  | skip hdir hskip _ ih => exact .skip (h.isDirectoryAt hdir) hskip (ih hmade)
  | up hdir _ ih => exact .up (h.isDirectoryAt hdir) (ih hmade)
  | follow hdir hname hmake hnode _ ih =>
      refine .follow (h.isDirectoryAt hdir) hname hmake ?_ (ih hmade)
      exact node?_eq_link_iff_way.2 (h.nodes _ _ (node?_eq_link_iff_way.1 hnode))
  | down hdir hname hmake hnode hlink _ ih =>
      obtain ⟨node', hnode', hlink'⟩ := h.exists_node hnode hlink
      exact .down (h.isDirectoryAt hdir) hname hmake hnode' hlink' (ih hmade)

theorem Extends.leads (h : Extends t t') (hleads : Leads t links here names D) :
    Leads t' links here names D :=
  (h.arrives hleads.arrives nofun).leads

/-- A path leads where it did, and to what has been made since where it led to a free name. -/
theorem Extends.locate {p : Path} (h : Extends t t') (hlocate : t.locate purpose p = .ok spot)
    (hmade : ∀ loc, spot = .vacant loc → ∃ node, t'.node? loc = some node ∧ ¬ t'.IsLinkAt loc) :
    t'.locate purpose p = .ok (.found spot.location) := by
  obtain ⟨hempty, hshort, harrives⟩ := locate_eq_ok_iff.1 hlocate
  refine locate_eq_ok_iff.2 ⟨hempty, hshort, ?_⟩
  rw [h.workingDirectory]
  exact h.arrives harrives hmade

/-- A path that leads to a node when something is to be made leads there in any case. -/
theorem locate_use {p : Path} (h : t.locate purpose p = .ok (.found loc)) :
    t.locate .use p = .ok (.found loc) := by
  obtain ⟨hempty, hshort, harrives⟩ := locate_eq_ok_iff.1 h
  exact locate_eq_ok_iff.2 ⟨hempty, hshort, harrives.leads.arrives⟩

/-! ## Paths to directories -/

/-- Does the path lead to the directory at a location?  The empty path, which stands for
itself in front of a component, leads to the working directory. -/
def Reaches (t : Tree) (p : Path) (loc : Location) : Prop :=
  t.isDirectoryAt loc ∧
    t.walk .use linkLimit (start p t.workingDirectory) p.names = .ok (.found loc)

section

variable {p : Path}

theorem Reaches.leads (h : t.Reaches p D) :
    Leads t linkLimit (start p t.workingDirectory) p.components D := by
  have hleads := leads_of_walk h.2
  rcases p.names_cases with hnames | hnames
  · rwa [hnames] at hleads
  · rw [hnames] at hleads
    exact hleads.of_slash

theorem Reaches.mono (h : t.Reaches p D) (hext : Extends t t') : t'.Reaches p D := by
  refine ⟨hext.isDirectoryAt h.1, ?_⟩
  rw [hext.workingDirectory]
  exact (hext.leads (leads_of_walk h.2)).walk

/-- A path whose components lead to a directory leads there, with a slash behind it or not. -/
theorem Leads.reaches (h : Leads t linkLimit (start p t.workingDirectory) p.components D)
    (hdir : t.isDirectoryAt D) : t.Reaches p D := by
  refine ⟨hdir, ?_⟩
  rcases p.names_cases with hnames | hnames
  · rw [hnames]
    exact h.walk
  · rw [hnames]
    exact h.walk_through nofun fun links => by rw [walk_skip hdir (Or.inl rfl), walk_nil]

theorem Reaches.unique {E : Location} (h : t.Reaches p D) (h' : t.Reaches p E) : D = E := by
  have heq := h.2.symm.trans h'.2
  cases heq
  rfl

theorem start_join (dir : Path) (hname : IsComponent name) :
    start (dir.join name) here = start dir here := by
  rw [start, start, dir.isAbsolute_join hname]

theorem text_join_ne_empty (dir : Path) (hname : IsComponent name) :
    (dir.join name).text ≠ "" := by
  intro htext
  have hnames := dir.components_join hname
  rw [Path.components, htext] at hnames
  simp [Path.between] at hnames

/-- The walk to the parent of a component fails at most because of the length of the whole path. -/
theorem Leads.walkFrom_join (h : Leads t linkLimit (start p t.workingDirectory) p.components D)
    (hname : IsComponent name) :
    t.walkFrom .use (p.join name) p.components = .error .nameTooLong ∨
      t.walkFrom .use (p.join name) p.components = .ok (.found D) := by
  rw [walkFrom, if_neg (text_join_ne_empty p hname), start_join p hname]
  split
  · exact Or.inl rfl
  · exact Or.inr h.walk

/-- Where the path of a component of a directory leads. -/
theorem Reaches.locate_join (h : t.Reaches p D) (hname : IsComponent name)
    (hlink : ¬ t.IsLinkAt (name :: D)) :
    t.locate purpose (p.join name) =
      if pathLimit ≤ (p.join name).text.utf8ByteSize then .error .nameTooLong
      else t.child D name := by
  rw [locate, walkFrom, if_neg (text_join_ne_empty p hname), start_join p hname, p.names_join hname,
    h.leads.walk_append h.1 hname hlink]

/-- The path of a component of a directory leads to its node, or to its free name. -/
theorem Reaches.spot_cases {spot : Spot} (h : t.Reaches p D) (hname : IsComponent name)
    (hlink : ¬ t.IsLinkAt (name :: D)) (hspot : t.locate purpose (p.join name) = .ok spot) :
    name.utf8ByteSize ≤ longestName ∧
      ((∃ node, t.node? (name :: D) = some node) ∧ spot = .found (name :: D) ∨
        t.node? (name :: D) = none ∧ spot = .vacant (name :: D)) := by
  rw [h.locate_join hname hlink, child] at hspot
  split at hspot
  · cases hspot
  split at hspot
  · cases hspot
  · rename_i hlong
    refine ⟨Nat.not_lt.1 hlong, ?_⟩
    split at hspot <;> rename_i hnode <;> cases hspot
    · exact Or.inl ⟨Option.isSome_iff_exists.1 hnode, rfl⟩
    · exact Or.inr ⟨by simpa using hnode, rfl⟩

/-- The path of a directory in a directory. -/
theorem Reaches.join (h : t.Reaches p D) (hname : IsComponent name)
    (hlength : name.utf8ByteSize ≤ longestName) (hdir : t.isDirectoryAt (name :: D)) :
    t.Reaches (p.join name) (name :: D) := by
  have hway := isDirectoryAt_iff_way.1 hdir
  have hlink : ¬ t.IsLinkAt (name :: D) := by
    rintro ⟨target, hlink⟩
    simp [hlink, way] at hway
  refine ⟨hdir, ?_⟩
  rw [start_join p hname, p.names_join hname, h.leads.walk_append h.1 hname hlink, child,
    if_neg (Nat.not_lt.2 hlength), if_pos]
  exact Option.isSome_map.symm.trans (congrArg Option.isSome hway)

/-- The directory of something that a path leads to below it. -/
theorem exists_reaches_of_join (hname : IsComponent name)
    (h : Leads t linkLimit (start (p.join name) t.workingDirectory) (p.join name).names loc) :
    ∃ D, t.Reaches p D := by
  rw [start_join p hname, p.names_join hname] at h
  obtain ⟨D, hleads, hdir⟩ := h.of_append (List.cons_ne_nil _ _)
  exact ⟨D, hleads.reaches hdir⟩

/-- Where the path of a directory in a directory leads. -/
theorem Reaches.join_iff {R : Location} (h : t.Reaches p R) (hname : IsComponent name)
    (hlink : ¬ t.IsLinkAt (name :: R)) :
    t.Reaches (p.join name) D ↔
      D = name :: R ∧ name.utf8ByteSize ≤ longestName ∧ t.isDirectoryAt (name :: R) := by
  constructor
  · rintro ⟨hdir, hwalk⟩
    rw [start_join p hname, p.names_join hname, h.leads.walk_append h.1 hname hlink, child] at hwalk
    split at hwalk
    · cases hwalk
    next hlong =>
    split at hwalk
    · cases hwalk
      exact ⟨rfl, Nat.not_lt.1 hlong, hdir⟩
    · cases hwalk
  · rintro ⟨rfl, hlength, hdir⟩
    exact h.join hname hlength hdir

end

end Tree

end BenchSweep
