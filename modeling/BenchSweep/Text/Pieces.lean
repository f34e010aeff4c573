/-!
# Cutting a text into pieces

* `pieces p s` cuts `s` at every character that satisfies `p`; there is always
  at least one piece, and `pieces_ne_nil` says so.
* `lines s` cuts `s` into its lines: a line ends in LF or CR LF, and the last one
  may also end with the text.
-/

namespace BenchSweep.Text

/-! ## Pieces -/

/-- Put a character in front of the first piece. -/
def consHead (c : Char) : List (List Char) → List (List Char)
  | [] => [[c]]
  | w :: ws => (c :: w) :: ws

/-- The stretches of a text between the characters that satisfy `p`, empty ones
included. -/
def pieces (p : Char → Bool) : List Char → List (List Char)
  | [] => [[]]
  | c :: s => if p c then [] :: pieces p s else consHead c (pieces p s)

@[simp] theorem pieces_nil (p : Char → Bool) : pieces p [] = [[]] := rfl

theorem consHead_ne_nil (c : Char) (ws : List (List Char)) : consHead c ws ≠ [] := by
  cases ws <;> simp [consHead]

/-- A text has at least one piece. -/
theorem pieces_ne_nil (p : Char → Bool) (s : List Char) : pieces p s ≠ [] := by
  cases s with
  | nil => simp
  | cons c s =>
      rw [pieces]
      split
      · simp
      · exact consHead_ne_nil c _

/-- A text without a separator is its own only piece. -/
theorem pieces_eq_singleton {p : Char → Bool} {s : List Char} (h : ∀ c ∈ s, p c = false) :
    pieces p s = [s] := by
  induction s with
  | nil => rfl
  | cons c s ih =>
      rw [pieces, h c List.mem_cons_self,
        ih fun d hd => h d (List.mem_cons_of_mem c hd)]
      rfl

/-- A separator after a text without one closes its first piece. -/
theorem pieces_append_cons {p : Char → Bool} {s : List Char} {d : Char} (t : List Char)
    (h : ∀ c ∈ s, p c = false) (hd : p d = true) :
    pieces p (s ++ d :: t) = s :: pieces p t := by
  induction s with
  | nil => simp [pieces, hd]
  | cons c s ih =>
      rw [List.cons_append, pieces, h c List.mem_cons_self,
        ih fun e he => h e (List.mem_cons_of_mem c he)]
      rfl

/-! ## Lines -/

/-- The lines of a text, without the LF or CR LF that ends them. -/
def lines : List Char → List (List Char)
  | [] => []
  | '\n' :: s => [] :: lines s
  | '\r' :: '\n' :: s => [] :: lines s
  | c :: s => consHead c (lines s)

@[simp] theorem lines_nil : lines [] = [] := rfl

@[simp] theorem lines_newline (s : List Char) : lines ('\n' :: s) = [] :: lines s := rfl

end BenchSweep.Text
