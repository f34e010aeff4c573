import BenchSweep.Table

/-!
# Keys and rows of tables

* `Table.keys` : the keys of the rows, in order.
* `Table.Distinct` : no key has two rows, so that the rows are those of a finite map
  (`Table.get?_eq_some_iff`).
* `Table.put_of_get?_eq_none`, `Table.put_put` : what setting a value does to the rows.
* `Table.Revalued` : rows whose keys have got other values; with the old values they are the old
  rows again (`Table.Revalued.eq_of_find`).
-/

namespace BenchSweep.Table

variable {Key Value : Type} [DecidableEq Key] {t : Table Key Value} {key : Key} {value : Value}

/-- The keys of the rows. -/
def keys (t : Table Key Value) : List Key := t.rows.map Prod.fst

/-- Does no key have two rows? -/
def Distinct (t : Table Key Value) : Prop := t.keys.Nodup

omit [DecidableEq Key] in
theorem distinct_empty : (empty : Table Key Value).Distinct := List.nodup_nil

/-! ## Looking up -/

theorem find_eq_none_iff {rows : List (Key × Value)} :
    find key rows = none ↔ key ∉ rows.map Prod.fst := by
  induction rows with
  | nil => simp [find]
  | cons row rows ih =>
      obtain ⟨k, v⟩ := row
      by_cases hk : k = key
      · simp [find, hk]
      · simp [find, hk, ih, Ne.symm hk]

/-- The keys are those that have a value. -/
theorem get?_eq_none_iff : t.get? key = none ↔ key ∉ t.keys := find_eq_none_iff

/-- The value of a key stands in one of its rows. -/
theorem mem_of_get?_eq_some (h : t.get? key = some value) : (key, value) ∈ t.rows := by
  obtain ⟨rows⟩ := t
  rw [get?] at h
  induction rows with
  | nil => cases h
  | cons row rows ih =>
      obtain ⟨k, v⟩ := row
      rw [find] at h
      split at h
      · next hk =>
          rw [hk, Option.some.inj h]
          exact List.mem_cons_self
      · exact List.mem_cons_of_mem _ (ih h)

/-- Every row stands for the value of its key. -/
theorem Distinct.get?_eq_some_iff (h : t.Distinct) :
    t.get? key = some value ↔ (key, value) ∈ t.rows := by
  refine ⟨mem_of_get?_eq_some, ?_⟩
  obtain ⟨rows⟩ := t
  simp only [Distinct, keys, get?] at h ⊢
  induction rows with
  | nil => simp
  | cons row rows ih =>
      obtain ⟨k, v⟩ := row
      obtain ⟨hk, hrows⟩ := List.nodup_cons.1 h
      intro hmem
      rcases List.mem_cons.1 hmem with heq | hmem
      · cases heq
        rw [find, if_pos rfl]
      · -- the key of a later row is not that of the first
        have hne : k ≠ key := by
          rintro rfl
          exact hk (List.mem_map.2 ⟨_, hmem, rfl⟩)
        rw [find, if_neg hne]
        exact ih hrows hmem

/-- The order of its rows does not matter to a finite map. -/
theorem Distinct.get?_eq_of_perm {u : Table Key Value} (h : t.Distinct)
    (hrows : t.rows.Perm u.rows) : t.get? = u.get? := by
  have hu : u.Distinct := (hrows.map Prod.fst).nodup_iff.1 h
  funext key
  apply Option.ext
  intro value
  rw [h.get?_eq_some_iff, hu.get?_eq_some_iff, hrows.mem_iff]

/-! ## Setting a value -/

theorem assign_of_find_eq_none {rows : List (Key × Value)} (h : find key rows = none) :
    assign key value rows = rows ++ [(key, value)] := by
  induction rows with
  | nil => rfl
  | cons row rows ih =>
      obtain ⟨k, v⟩ := row
      rw [find] at h
      split at h
      · cases h
      · next hk => rw [assign, if_neg hk, ih h, List.cons_append]

/-- A new key goes to the end. -/
theorem put_of_get?_eq_none (h : t.get? key = none) :
    t.put key value = ⟨t.rows ++ [(key, value)]⟩ :=
  congrArg mk (assign_of_find_eq_none h)

/-- Of two values that are set for a key the second counts. -/
theorem put_put (t : Table Key Value) (key : Key) (value value' : Value) :
    (t.put key value).put key value' = t.put key value' := by
  obtain ⟨rows⟩ := t
  simp only [put, mk.injEq]
  induction rows with
  | nil => simp [assign]
  | cons row rows ih =>
      obtain ⟨k, v⟩ := row
      by_cases hk : k = key
      · simp [assign, hk]
      · simp [assign, hk, ih]

theorem keys_put (t : Table Key Value) (key : Key) (value : Value) :
    (t.put key value).keys = if key ∈ t.keys then t.keys else t.keys ++ [key] := by
  obtain ⟨rows⟩ := t
  simp only [put, keys]
  induction rows with
  | nil => rfl
  | cons row rows ih =>
      obtain ⟨k, v⟩ := row
      by_cases hk : k = key
      · simp [assign, hk]
      · rw [assign, if_neg hk, List.map_cons, ih]
        by_cases hmem : key ∈ rows.map Prod.fst
        · simp [hmem]
        · simp [hmem, Ne.symm hk]

/-- Setting a value gives no key a second row. -/
theorem Distinct.put (h : t.Distinct) (key : Key) (value : Value) : (t.put key value).Distinct := by
  rw [Distinct, keys_put]
  split
  · exact h
  · next hkey =>
      refine List.nodup_append.2 ⟨h, by simp, fun k hk other hother heq => ?_⟩
      rw [heq, List.mem_singleton.1 hother] at hk
      exact hkey hk

/-! ## Other values for the same keys -/

/-- The rows with other values for keys that are not `fixed`.  A key has its value in its first
row, so the rows behind that one stay as they are. -/
inductive Revalued : (fixed : List Key) → (rows rows' : List (Key × Value)) → Prop
  | nil {fixed} : Revalued fixed [] []
  | cons {fixed k v w rows rows'} (hfixed : k ∈ fixed → v = w)
      (hrows : Revalued (k :: fixed) rows rows') :
      Revalued fixed ((k, v) :: rows) ((k, w) :: rows')

section

variable {fixed : List Key} {rows rows' : List (Key × Value)}

omit [DecidableEq Key] in
theorem Revalued.refl (fixed : List Key) (rows : List (Key × Value)) :
    Revalued fixed rows rows := by
  induction rows generalizing fixed with
  | nil => exact .nil
  | cons row rows ih => exact .cons (fun _ => rfl) (ih _)

/-- A key that has a value may get another one. -/
theorem Revalued.assign (h : Revalued fixed rows rows') (hfixed : key ∉ fixed)
    (hkey : find key rows' ≠ none) : Revalued fixed rows (assign key value rows') := by
  induction h with
  | nil => exact absurd rfl hkey
  | @cons fixed k v w rows rows' hsame hrows ih =>
      rw [Table.assign]
      split
      · next hk => exact .cons (fun hmem => absurd (hk ▸ hmem) hfixed) hrows
      · next hk =>
          refine .cons hsame (ih (fun hmem => ?_) ?_)
          · rcases List.mem_cons.1 hmem with heq | hmem
            · exact hk heq.symm
            · exact hfixed hmem
          · rwa [find, if_neg hk] at hkey

/-- Rows in which every key has its old value are the old rows. -/
theorem Revalued.eq_of_find (h : Revalued fixed rows rows')
    (hfind : ∀ key, key ∉ fixed → find key rows' = find key rows) : rows' = rows := by
  induction h with
  | nil => rfl
  | @cons fixed k v w rows rows' hsame _ ih =>
      have hvalue : w = v := by
        by_cases hk : k ∈ fixed
        · exact (hsame hk).symm
        · simpa [find] using hfind k hk
      rw [hvalue, ih fun key hkey => ?_]
      obtain ⟨hne, hkey⟩ := not_or.1 (mt List.mem_cons.2 hkey)
      simpa [find, Ne.symm hne] using hfind key hkey

end

end BenchSweep.Table
