import Mathlib.Data.List.Nodup
import BenchSweep.Outcome
import BenchSweep.Proofs.Text.Numeral

/-!
# Outcomes told apart by their words

The texts of outcomes come in families: numbers, names of signals, and the words `signal N` for a
signal without a name.  The first character tells the families apart.

* `Plain` : a text of visible ASCII characters and spaces, which no line break is.
* `signalName_injective` : no two signals are called the same.
* `Outcome.annotation_injective`, `Outcome.label_injective` : an annotation, or the lack of one, and
  a label each tell the outcome.
* `Outcome.plain_annotation`, `Outcome.plain_label` : these texts are plain.
-/

namespace BenchSweep

/-- Does the text hold visible ASCII characters and spaces only? -/
def Plain (text : String) : Prop := ∀ c ∈ text.toList, ' ' ≤ c ∧ c ≤ '~'

instance (text : String) : Decidable (Plain text) := List.decidableBAll _ text.toList

theorem Plain.append {s t : String} (hs : Plain s) (ht : Plain t) : Plain (s ++ t) := by
  unfold Plain
  rw [String.toList_append]
  exact List.forall_mem_append.2 ⟨hs, ht⟩

/-! ## Numbers -/

/-- A number is written with its digits, behind a sign if it is negative. -/
theorem toList_toString (n : Int) :
    (toString n).toList =
      if n < 0 then '-' :: Text.decimal n.natAbs else Text.decimal n.natAbs := by
  cases n with
  | ofNat m =>
      rw [if_neg (by simp)]
      exact Nat.toList_repr
  | negSucc m =>
      have htext : toString (Int.negSucc m) = "-" ++ m.succ.repr := rfl
      rw [if_pos (Int.negSucc_lt_zero m), htext, String.toList_append, Nat.toList_repr]
      rfl

/-- A number starts with a digit or with a sign. -/
theorem head?_toString (n : Int) :
    ∃ c, (toString n).toList.head? = some c ∧ (c = '-' ∨ c.isDigit) := by
  obtain ⟨c, rest, hdigits⟩ := List.exists_cons_of_ne_nil
    (by simp [Text.decimal] : Text.decimal n.natAbs ≠ [])
  rw [toList_toString]
  split
  · exact ⟨'-', rfl, Or.inl rfl⟩
  · rw [hdigits]
    exact ⟨c, rfl, Or.inr (Text.isDigit_of_mem_decimal (hdigits ▸ List.mem_cons_self))⟩

theorem toString_injective : Function.Injective (toString : Int → String) := by
  intro m n heq
  have hchars := congrArg String.toList heq
  -- a sign is no digit
  have hsign {k l : Nat} : '-' :: Text.decimal k ≠ Text.decimal l := fun h =>
    absurd (Text.isDigit_of_mem_decimal (h ▸ List.mem_cons_self)) (by decide)
  rw [toList_toString, toList_toString] at hchars
  split at hchars <;> split at hchars
  · have habs := Text.decimal_injective (List.cons.inj hchars).2
    omega
  · exact absurd hchars hsign
  · exact absurd hchars.symm hsign
  · have habs := Text.decimal_injective hchars
    omega

theorem plain_toString (n : Int) : Plain (toString n) := by
  have hdigits : ∀ c ∈ Text.decimal n.natAbs, ' ' ≤ c ∧ c ≤ '~' := by
    intro c hc
    have hdigit := Text.isDigit_of_mem_decimal hc
    simp only [Char.isDigit, ge_iff_le, Bool.and_eq_true, decide_eq_true_eq] at hdigit
    exact ⟨UInt32.le_trans (by decide) hdigit.1, UInt32.le_trans hdigit.2 (by decide)⟩
  unfold Plain
  rw [toList_toString]
  split
  · exact List.forall_mem_cons.2 ⟨by decide, hdigits⟩
  · exact hdigits

/-! ## Signals -/

theorem signalNames_nodup : signalNames.Nodup := by decide

theorem of_mem_signalNames :
    ∀ name ∈ signalNames, name.toList.head? = some 'S' ∧ Plain name := by decide

/-- A signal has the name that its number picks, or is called by its number. -/
theorem signalName_cases (signal : Int) :
    (∃ i, ∃ h : i < signalNames.length, signal = i + 1 ∧ signalName signal = signalNames[i]) ∨
      signalName signal = "signal " ++ toString signal := by
  unfold signalName
  split
  · next name hname =>
      split at hname
      · next hpos =>
          obtain ⟨hlt, heq⟩ := List.getElem?_eq_some_iff.1 hname
          exact Or.inl ⟨_, hlt, by omega, heq.symm⟩
      · cases hname
  · exact Or.inr rfl

/-- A text with any other start is called no signal. -/
theorem signalName_ne {text : String} (hS : text.toList.head? ≠ some 'S')
    (hs : text.toList.head? ≠ some 's') (signal : Int) : signalName signal ≠ text := by
  rintro rfl
  rcases signalName_cases signal with ⟨i, hi, -, hname⟩ | hname
  · rw [hname] at hS
    exact hS (of_mem_signalNames _ (List.getElem_mem hi)).1
  · rw [hname] at hs
    exact hs (by simp)

/-- No two signals are called the same. -/
theorem signalName_injective : Function.Injective signalName := by
  intro m n heq
  -- a name from the list starts with a capital letter
  have hother (i : Nat) (hi : i < signalNames.length) (k : Int) :
      signalNames[i] ≠ "signal " ++ toString k := by
    intro h
    have hhead := (of_mem_signalNames _ (List.getElem_mem hi)).1
    rw [h] at hhead
    simp at hhead
  rcases signalName_cases m with ⟨i, hi, rfl, hm⟩ | hm <;>
    rcases signalName_cases n with ⟨j, hj, rfl, hn⟩ | hn <;> rw [hm, hn] at heq
  · rw [(signalNames_nodup.getElem_inj_iff).1 heq]
  · exact absurd heq (hother i hi n)
  · exact absurd heq.symm (hother j hj m)
  · exact toString_injective ((String.append_right_inj _).1 heq)

theorem plain_signalName (signal : Int) : Plain (signalName signal) := by
  rcases signalName_cases signal with ⟨i, hi, -, h⟩ | h
  · rw [h]
    exact (of_mem_signalNames _ (List.getElem_mem hi)).2
  · rw [h]
    exact Plain.append (by decide) (plain_toString signal)

/-- A number is called no signal. -/
theorem signalName_ne_toString (signal code : Int) : signalName signal ≠ toString code := by
  obtain ⟨c, hc, hstart⟩ := head?_toString code
  have hne {letter : Char} (h : ¬ (letter = '-' ∨ letter.isDigit)) :
      (toString code).toList.head? ≠ some letter := by
    rw [hc]
    rintro ⟨rfl⟩
    exact h hstart
  exact signalName_ne (hne (by decide)) (hne (by decide)) signal

/-! ## Outcomes -/

namespace Outcome

theorem died_ne_timedOut (text : String) : "Died. " ++ text ≠ "Killed. Timed out." := by
  intro h
  have hhead := congrArg (·.toList.head?) h
  simp at hhead

/-- An annotation tells the outcome, and so does the lack of one. -/
theorem annotation_injective : Function.Injective annotation := by
  intro o o' h
  cases o <;> cases o' <;>
    simp only [Option.some.injEq, annotation, reduceCtorEq, String.append_right_inj,
      died_ne_timedOut, (died_ne_timedOut _).symm, signalName_ne_toString,
      (signalName_ne_toString _ _).symm] at h ⊢
  case exited.exited => rw [toString_injective h]
  case killed.killed => rw [signalName_injective h]

theorem exit_ne {text : String} (h : text.toList.head? ≠ some 'e') (code : Int) :
    "exit " ++ toString code ≠ text := by
  rintro rfl
  simp at h

/-- A label tells the outcome. -/
theorem label_injective : Function.Injective label := by
  have hok := signalName_ne (by decide : "ok".toList.head? ≠ _) (by decide)
  have htime := signalName_ne (by decide : "timed out".toList.head? ≠ _) (by decide)
  have hexit (signal code : Int) : signalName signal ≠ "exit " ++ toString code :=
    signalName_ne (by simp) (by simp) signal
  have hexitOk := exit_ne (by decide : "ok".toList.head? ≠ _)
  have hexitTime := exit_ne (by decide : "timed out".toList.head? ≠ _)
  intro o o' h
  cases o <;> cases o' <;>
    simp only [label, String.append_right_inj, String.reduceEq, hok, (hok _).symm, htime,
      (htime _).symm, hexit, (hexit _ _).symm, hexitOk, (hexitOk _).symm, hexitTime,
      (hexitTime _).symm] at h ⊢
  case exited.exited => rw [toString_injective h]
  case killed.killed => rw [signalName_injective h]

theorem plain_annotation {o : Outcome} {note : String} (h : o.annotation = some note) :
    Plain note := by
  cases o with
  | success => cases h
  | timedOut =>
      cases h
      decide
  | exited code =>
      cases h
      exact Plain.append (by decide) (plain_toString code)
  | killed signal =>
      cases h
      exact Plain.append (by decide) (plain_signalName signal)

theorem plain_label (o : Outcome) : Plain o.label := by
  cases o with
  | success => decide
  | timedOut => decide
  | exited code => exact Plain.append (by decide) (plain_toString code)
  | killed signal => exact plain_signalName signal

end Outcome

end BenchSweep
