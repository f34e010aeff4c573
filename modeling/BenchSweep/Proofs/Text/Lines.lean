import BenchSweep.Text.Pieces

/-!
# Lines of a text

* `Text.pieces_append`, `Text.eq_false_of_mem_pieces` : the pieces of two texts with a separator
  between them, and what no piece holds.
* `Text.head_append_flatMap_pieces` : the pieces of a text with the separators between them are
  the text.
* `Text.append_cons_inj` : the same first separator parts the same texts the same way.
* `Text.newline_not_mem_of_mem_lines` : no line holds an LF.
* `Text.lines_append_newline` : a line in front of a text, with an LF behind it, is its first
  line.
-/

namespace BenchSweep.Text

variable {s line : List Char} {c : Char}

/-! ## Pieces -/

theorem mem_consHead {ws : List (List Char)} (h : line ∈ consHead c ws) :
    (∃ w, line = c :: w ∧ (w = [] ∨ w ∈ ws)) ∨ line ∈ ws := by
  cases ws with
  | nil =>
      obtain rfl := List.mem_singleton.1 h
      exact Or.inl ⟨[], rfl, Or.inl rfl⟩
  | cons w ws =>
      rcases List.mem_cons.1 h with rfl | h
      · exact Or.inl ⟨w, rfl, Or.inr List.mem_cons_self⟩
      · exact Or.inr (List.mem_cons_of_mem w h)

/-- The pieces of two texts with a separator between them. -/
theorem pieces_append {p : Char → Bool} {d : Char} (hd : p d = true) (s t : List Char) :
    pieces p (s ++ d :: t) = pieces p s ++ pieces p t := by
  induction s with
  | nil => simp [pieces, hd]
  | cons c s ih =>
      rw [List.cons_append, pieces, pieces, ih]
      split
      · rfl
      · -- the letter joins the first piece of what follows, which there always is
        obtain ⟨w, ws, hw⟩ := List.exists_cons_of_ne_nil (pieces_ne_nil p s)
        rw [hw]
        rfl

/-- No piece holds a separator. -/
theorem eq_false_of_mem_pieces {p : Char → Bool} (h : line ∈ pieces p s) :
    ∀ c ∈ line, p c = false := by
  induction s generalizing line with
  | nil =>
      obtain rfl := List.mem_singleton.1 h
      simp
  | cons c s ih =>
      rw [pieces] at h
      split at h
      · rcases List.mem_cons.1 h with rfl | h
        · simp
        · exact ih h
      · next hc =>
          rcases mem_consHead h with ⟨w, rfl, hw⟩ | h
          · rw [List.forall_mem_cons]
            refine ⟨by simpa using hc, ?_⟩
            rcases hw with rfl | hw
            · simp
            · exact ih hw
          · exact ih h

theorem not_mem_of_mem_pieces {d : Char} (h : line ∈ pieces (· == d) s) : d ∉ line :=
  fun hmem => by simpa using eq_false_of_mem_pieces h d hmem

/-- The pieces of a text with the separators between them are the text. -/
theorem head_append_flatMap_pieces (d : Char) (s : List Char) :
    (pieces (· == d) s).headD [] ++ (pieces (· == d) s).tail.flatMap (d :: ·) = s := by
  induction s with
  | nil => rfl
  | cons c s ih =>
      obtain ⟨w, ws, hws⟩ := List.exists_cons_of_ne_nil (pieces_ne_nil (· == d) s)
      rw [hws] at ih
      rw [pieces]
      split
      · next hc =>
          rw [beq_iff_eq] at hc
          subst hc
          simpa [hws] using ih
      · simpa [hws, consHead] using ih

/-- Two texts with the same first separator are the same in front of it and behind it. -/
theorem append_cons_inj {front front' rest rest' : List Char} (hfront : c ∉ front)
    (hfront' : c ∉ front') (h : front ++ c :: rest = front' ++ c :: rest') :
    front = front' ∧ rest = rest' := by
  have hother {s : List Char} (hs : c ∉ s) : ∀ d ∈ s, (d == c) = false := fun d hd =>
    beq_eq_false_iff_ne.2 (ne_of_mem_of_not_mem hd hs)
  have hpieces := congrArg (pieces (· == c)) h
  rw [pieces_append_cons _ (hother hfront) (beq_self_eq_true c),
    pieces_append_cons _ (hother hfront') (beq_self_eq_true c)] at hpieces
  obtain rfl := (List.cons.inj hpieces).1
  exact ⟨rfl, (List.cons.inj (List.append_cancel_left h)).2⟩

/-! ## Lines -/

/-- A character that ends no line belongs to the first one. -/
theorem lines_cons (hc : c ≠ '\n') (hcr : c = '\r' → s.head? ≠ some '\n') :
    lines (c :: s) = consHead c (lines s) := by
  rw [lines]
  · exact hc
  · rintro t rfl rfl
    exact hcr rfl rfl

/-- No line holds an LF. -/
theorem newline_not_mem_of_mem_lines (h : line ∈ lines s) : '\n' ∉ line := by
  induction s using lines.induct generalizing line with
  | case1 => cases h
  | case2 s ih =>
      rcases List.mem_cons.1 h with rfl | h
      · exact List.not_mem_nil
      · exact ih h
  | case3 s ih =>
      rcases List.mem_cons.1 h with rfl | h
      · exact List.not_mem_nil
      · exact ih h
  | case4 c s hc hcr ih =>
      rw [lines] at h
      · rcases mem_consHead h with ⟨w, rfl, hw⟩ | h
        · intro hmem
          rcases List.mem_cons.1 hmem with heq | hmem
          · exact hc heq.symm
          · rcases hw with rfl | hw
            · cases hmem
            · exact ih hw hmem
        · exact ih h
      · exact hc
      · exact hcr

/-- A line without an LF, and without a CR at its end, is read back if an LF stands behind it. -/
theorem lines_append_newline (hlf : '\n' ∉ line) (hcr : line.getLast? ≠ some '\r')
    (s : List Char) : lines (line ++ '\n' :: s) = line :: lines s := by
  induction line with
  | nil => rfl
  | cons c line ih =>
      have hc : c ≠ '\n' := fun h => hlf (h ▸ List.mem_cons_self)
      cases line with
      | nil =>
          have hcr : c ≠ '\r' := fun h => hcr (h ▸ rfl)
          rw [List.cons_append, lines_cons hc fun h => absurd h hcr]
          rfl
      | cons d line =>
          -- the character behind a CR is one of the line
          have hd : d ≠ '\n' := fun h => hlf (h ▸ List.mem_cons_of_mem c List.mem_cons_self)
          have hnext : ((d :: line) ++ '\n' :: s).head? ≠ some '\n' := fun h =>
            hd (Option.some.inj h)
          rw [List.getLast?_cons_of_ne_nil (List.cons_ne_nil d line)] at hcr
          rw [List.cons_append, lines_cons hc fun _ => hnext,
            ih (fun h => hlf (List.mem_cons_of_mem c h)) hcr]
          rfl

/-- A line without an LF is read back if a CR LF stands behind it. -/
theorem lines_append_crlf (hlf : '\n' ∉ line) (s : List Char) :
    lines (line ++ '\r' :: '\n' :: s) = line :: lines s := by
  induction line with
  | nil => rfl
  | cons c line ih =>
      have hc : c ≠ '\n' := fun h => hlf (h ▸ List.mem_cons_self)
      have hline : '\n' ∉ line := fun h => hlf (List.mem_cons_of_mem c h)
      have hnext : (line ++ '\r' :: '\n' :: s).head? ≠ some '\n' := by
        cases line with
        | nil => simp
        | cons d line => exact fun h => hline (Option.some.inj h ▸ List.mem_cons_self)
      rw [List.cons_append, lines_cons hc fun _ => hnext, ih hline]
      rfl

/-- A line without an LF is read back if nothing stands behind it. -/
theorem lines_of_not_mem (hlf : '\n' ∉ line) (hne : line ≠ []) : lines line = [line] := by
  induction line with
  | nil => exact absurd rfl hne
  | cons c line ih =>
      have hc : c ≠ '\n' := fun h => hlf (h ▸ List.mem_cons_self)
      have hline : '\n' ∉ line := fun h => hlf (List.mem_cons_of_mem c h)
      rw [lines_cons hc fun _ h => hline (List.mem_of_head? h)]
      cases line with
      | nil => rfl
      | cons d line =>
          rw [ih hline (List.cons_ne_nil d line)]
          rfl

/-- Lines with an LF behind each are read back. -/
theorem lines_flatMap {ls : List (List Char)}
    (h : ∀ line ∈ ls, '\n' ∉ line ∧ line.getLast? ≠ some '\r') :
    lines (ls.flatMap (· ++ ['\n'])) = ls := by
  induction ls with
  | nil => rfl
  | cons line ls ih =>
      obtain ⟨hlf, hcr⟩ := h line List.mem_cons_self
      rw [List.flatMap_cons, List.append_assoc, List.singleton_append,
        lines_append_newline hlf hcr, ih fun l hl => h l (List.mem_cons_of_mem line hl)]

end BenchSweep.Text
