/-!
# Tables

A table is a list of keys with their values in the order in which the keys came
first.  It is looked at through `get?`, and one lemma per operation says what the
operation does to that view.

* `get?_put` : after `put k v` the key `k` has the value `v` and all else is as before.
-/

namespace BenchSweep

/-- A finite map that remembers the order in which its keys came first. -/
structure Table (Key Value : Type) where
  rows : List (Key × Value)
  deriving Repr, DecidableEq

namespace Table

variable {Key Value : Type} [DecidableEq Key]

/-- The table without a key. -/
def empty : Table Key Value := ⟨[]⟩

/-- The value of the first row with the key. -/
def find (key : Key) : List (Key × Value) → Option Value
  | [] => none
  | (k, v) :: rows => if k = key then some v else find key rows

/-- The value of a key. -/
def get? (t : Table Key Value) (key : Key) : Option Value := find key t.rows

/-- Set the value of the first row with the key, or add a row. -/
def assign (key : Key) (value : Value) : List (Key × Value) → List (Key × Value)
  | [] => [(key, value)]
  | (k, v) :: rows => if k = key then (k, value) :: rows else (k, v) :: assign key value rows

/-- Set the value of a key; a new key goes to the end. -/
def put (t : Table Key Value) (key : Key) (value : Value) : Table Key Value :=
  ⟨assign key value t.rows⟩

/-- Keep the rows whose key satisfies `p`. -/
def keep (t : Table Key Value) (p : Key → Bool) : Table Key Value :=
  ⟨t.rows.filter fun row => p row.1⟩

/-! ## The view -/

@[simp] theorem get?_empty (key : Key) : (empty : Table Key Value).get? key = none := rfl

theorem find_assign (key other : Key) (value : Value) (rows : List (Key × Value)) :
    find other (assign key value rows) = if key = other then some value else find other rows := by
  induction rows with
  | nil => simp [assign, find]
  | cons row rows ih =>
      obtain ⟨k, v⟩ := row
      by_cases hk : k = key
      · subst hk
        by_cases ho : k = other <;> simp [assign, find, ho]
      · by_cases ho : k = other
        · subst ho
          simp [assign, find, hk, Ne.symm hk]
        · simp [assign, find, hk, ho, ih]

/-- After `put` the key has the new value and every other key the old one. -/
theorem get?_put (t : Table Key Value) (key other : Key) (value : Value) :
    (t.put key value).get? other = if key = other then some value else t.get? other :=
  find_assign key other value t.rows

@[simp] theorem get?_put_self (t : Table Key Value) (key : Key) (value : Value) :
    (t.put key value).get? key = some value := by
  simp [get?_put]

theorem get?_put_ne (t : Table Key Value) {key other : Key} (value : Value) (h : key ≠ other) :
    (t.put key value).get? other = t.get? other := by
  simp [get?_put, h]

end Table

end BenchSweep
