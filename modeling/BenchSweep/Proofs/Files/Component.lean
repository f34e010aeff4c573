import BenchSweep.Files.Path
import BenchSweep.Proofs.Text.Lines

/-!
# Paths below a directory

The path of a component of a directory walks through the names of the directory, and
then through the component.

* `IsComponent` : a name that stands for itself in a path.
* `Path.names_join` : the names of a path below a directory.
* `Path.isAbsolute_join` : it starts where the path of the directory starts.
* `Path.parts` : what paths are compared by.
* `Path.parts_join` : the parts of a path below a directory.
-/

namespace BenchSweep

/-- A name that stands for itself in a path: a single component. -/
def IsComponent (name : String) : Prop :=
  name ≠ "" ∧ '/' ∉ name.toList ∧ name ≠ "." ∧ name ≠ ".."

instance (name : String) : Decidable (IsComponent name) := inferInstanceAs (Decidable (_ ∧ _))

/-- Two texts without slashes make a component with a dash between them. -/
theorem isComponent_dash {front back : String} (hfront : '/' ∉ front.toList)
    (hback : '/' ∉ back.toList) : IsComponent (front ++ "-" ++ back) := by
  have hdash : '-' ∈ (front ++ "-" ++ back).toList := by simp
  have hne {name : String} (hname : '-' ∉ name.toList) : front ++ "-" ++ back ≠ name := by
    rintro rfl
    exact hname hdash
  refine ⟨hne (by decide), ?_, hne (by decide), hne (by decide)⟩
  simp [hfront, hback]

namespace Path

/-- The names between the slashes of a text. -/
def between (text : List Char) : List String :=
  ((Text.pieces (· == '/') text).map String.ofList).filter (· ≠ "")

/-- The names of a path without the empty one at its end. -/
def components (p : Path) : List String := between p.text.toList

variable {name : String}

theorem between_append (s t : List Char) : between (s ++ '/' :: t) = between s ++ between t := by
  unfold between
  rw [Text.pieces_append rfl, List.map_append, List.filter_append]

theorem between_of_isComponent (h : IsComponent name) : between name.toList = [name] := by
  have hpieces : Text.pieces (· == '/') name.toList = [name.toList] := by
    apply Text.pieces_eq_singleton
    intro c hc
    exact beq_false_of_ne fun heq => h.2.1 (heq ▸ hc)
  simp [between, hpieces, h.1]

theorem names_eq (p : Path) :
    p.names =
      if p.endsInSlash && !p.components.isEmpty then p.components ++ [""] else p.components :=
  rfl

/-- The names of a path are its components, and perhaps an empty name behind them. -/
theorem names_cases (p : Path) : p.names = p.components ∨ p.names = p.components ++ [""] := by
  rw [names_eq]
  split
  · exact Or.inr rfl
  · exact Or.inl rfl

theorem ne_empty_of_mem_components {p : Path} (h : name ∈ p.components) : name ≠ "" := by
  simpa using (List.mem_filter.1 h).2

theorem filter_names (p : Path) : p.names.filter (· ≠ "") = p.components := by
  have hfilter : p.components.filter (· ≠ "") = p.components :=
    List.filter_eq_self.2 fun _ h => by simpa using ne_empty_of_mem_components h
  rcases p.names_cases with h | h
  · rw [h, hfilter]
  · rw [h, List.filter_append, hfilter]
    simp

/-- A component is no absolute path. -/
theorem not_isAbsolute (h : IsComponent name) : ¬ (Path.mk name).isAbsolute := by
  intro habs
  apply h.2.1
  exact List.mem_of_head? (by simpa [isAbsolute] using habs)

/-- What follows the path of a directory in the path of a component of it. -/
theorem join_cases (dir : Path) (h : IsComponent name) :
    (dir.text = "" ∧ dir.join name = ⟨name⟩) ∨
      (∃ front, dir.text.toList = front ++ ['/'] ∧
        (dir.join name).text.toList = front ++ '/' :: name.toList) ∨
      dir.text ≠ "" ∧ (dir.join name).text.toList = dir.text.toList ++ '/' :: name.toList := by
  have habs := not_isAbsolute h
  by_cases hempty : dir.text = ""
  · left
    simp [join, habs, hempty]
  by_cases hslash : dir.endsInSlash
  · right
    left
    obtain ⟨front, hfront⟩ := List.getLast?_eq_some_iff.1 (by simpa [endsInSlash] using hslash)
    exact ⟨front, hfront, by simp [join, habs, hslash, hfront]⟩
  · right
    right
    exact ⟨hempty, by simp [join, habs, hempty, hslash]⟩

theorem components_join (dir : Path) (h : IsComponent name) :
    (dir.join name).components = dir.components ++ [name] := by
  unfold components
  rcases dir.join_cases h with ⟨hdir, hjoin⟩ | ⟨front, hdir, hjoin⟩ | ⟨-, hjoin⟩
  · rw [hdir, hjoin, between_of_isComponent h]
    rfl
  · -- the slash at the end of the directory is the one that separates
    rw [hdir, hjoin, between_append, between_append, between_of_isComponent h]
    simp [between]
  · rw [hjoin, between_append, between_of_isComponent h]

theorem endsInSlash_join (dir : Path) (h : IsComponent name) :
    (dir.join name).endsInSlash = false := by
  have hne : name.toList ≠ [] := by simpa using h.1
  have hlast : name.toList.getLast? = some (name.toList.getLast hne) :=
    List.getLast?_eq_some_getLast hne
  have hc : name.toList.getLast hne ≠ '/' := fun hc => h.2.1 (hc ▸ List.getLast_mem hne)
  unfold endsInSlash
  rcases dir.join_cases h with ⟨-, hjoin⟩ | ⟨front, -, hjoin⟩ | ⟨-, hjoin⟩ <;> rw [hjoin]
  · rw [hlast]
    simpa using hc
  all_goals
    rw [List.getLast?_append, List.getLast?_cons_of_ne_nil hne, hlast]
    simpa using hc

/-- The names of a path below a directory: those of the directory, then the component. -/
theorem names_join (dir : Path) (h : IsComponent name) :
    (dir.join name).names = dir.components ++ [name] := by
  rw [names_eq, endsInSlash_join dir h, components_join dir h]
  rfl

/-- A path below a directory starts where the path of the directory starts. -/
theorem isAbsolute_join (dir : Path) (h : IsComponent name) :
    (dir.join name).isAbsolute = dir.isAbsolute := by
  have habs := not_isAbsolute h
  unfold isAbsolute at habs ⊢
  rcases dir.join_cases h with ⟨hdir, hjoin⟩ | ⟨front, hdir, hjoin⟩ | ⟨hdir, hjoin⟩
  · rw [hdir, hjoin]
    simpa using habs
  · -- the first letter is that of `front`, or the slash
    rw [hdir, hjoin]
    cases front <;> rfl
  · obtain ⟨c, rest, hc⟩ := List.exists_cons_of_ne_nil (l := dir.text.toList) (by simpa using hdir)
    rw [hjoin, hc]
    rfl

/-! ## Comparing paths -/

/-- The parts of a path, by which paths are compared: the root if the path starts there, then the
names.  Repeated slashes and slashes at the end do not count, and neither does a dot, unless a path
that does not start at the root starts with it. -/
def parts (p : Path) : List String :=
  let plain := p.components.filter (· ≠ ".")
  if p.isAbsolute then "/" :: plain
  else if p.components.head? = some "." then "." :: plain
  else plain

/-- The parts of a path below a directory: those of the directory, then the component. -/
theorem parts_join (dir : Path) (h : IsComponent name) :
    (dir.join name).parts = dir.parts ++ [name] := by
  have hdot : name ≠ "." := h.2.2.1
  have hplain : (dir.components ++ [name]).filter (· ≠ ".") =
      dir.components.filter (· ≠ ".") ++ [name] := by
    simp [hdot]
  -- the first name is that of the directory, or the component, which is no dot
  have hhead : (dir.components ++ [name]).head? = some "." ↔ dir.components.head? = some "." := by
    cases dir.components <;> simp [hdot]
  unfold parts
  rw [isAbsolute_join dir h, components_join dir h, hplain]
  simp only [hhead]
  split
  · rfl
  · split <;> rfl

example : (join ⟨"./a//b/./"⟩ "c").parts = [".", "a", "b", "c"] := by decide +kernel

end Path

end BenchSweep
