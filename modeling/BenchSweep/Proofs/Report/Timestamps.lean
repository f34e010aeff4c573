import BenchSweep.Proofs.Report.Calendar
import BenchSweep.Proofs.Text.Numeral

/-!
# Timestamps

Instants are read from their form in RFC 3339 by a reader of its own, which takes the fields of
fixed width one after the other and the calendar by its rules.

* `Instant.ofRfc3339?` : the instant that a timestamp in universal time stands for.
* `Instant.Dated` : the instants of the years 0 to 9999, leap seconds among them.
* `Instant.ofRfc3339?_rfc3339` : what is written is read back to the nanosecond.
-/

namespace BenchSweep.Instant

open Text

variable {s rest : List Char} {n width : Nat} {c : Char} {i : Instant}

/-! ## Reading -/

/-- A number in exactly so many digits, and what follows it. -/
def fixed? (width : Nat) (s : List Char) : Option (Nat × List Char) :=
  if width ≤ s.length then (natural? (s.take width)).map (·, s.drop width) else none

/-- What follows a character that the text starts with. -/
def behind? (c : Char) : List Char → Option (List Char)
  | [] => none
  | d :: rest => if d = c then some rest else none

/-- The nanoseconds of a fraction of a second, which may be missing or have up to nine digits, and
what follows it. -/
def fraction? : List Char → Option (Nat × List Char)
  | '.' :: s => do
      let (digits, rest) ← leadingDigits? s
      if digits.length ≤ 9 then some (digitsValue digits * 10 ^ (9 - digits.length), rest) else none
  | s => some (0, s)

/-- The day that a date stands for, and what follows the date. -/
def day? (s : List Char) : Option (Int × List Char) := do
  let (year, s) ← fixed? 4 s
  let s ← behind? '-' s
  let (month, s) ← fixed? 2 s
  let s ← behind? '-' s
  let (day, s) ← fixed? 2 s
  let date : Date := ⟨year, month, day⟩
  if date.IsDate then some (date.dayNumber, s) else none

/-- The second of the day that a time of day stands for, the nanoseconds that its last second has
gone on for if it is a leap second, and what follows its whole seconds. -/
def second? (s : List Char) : Option ((Nat × Nat) × List Char) := do
  let (hour, s) ← fixed? 2 s
  let s ← behind? ':' s
  let (minute, s) ← fixed? 2 s
  let s ← behind? ':' s
  let (second, s) ← fixed? 2 s
  if hour < 24 ∧ minute < 60 ∧ second ≤ 60 then
    some ((hour * 3600 + minute * 60 + min second 59, second / 60 * 1000000000), s)
  else none

/-- The instant that a timestamp in universal time stands for. -/
def ofRfc3339? (s : String) : Option Instant := do
  let (day, s) ← day? s.toList
  let s ← behind? 'T' s
  let ((second, leap), s) ← second? s
  let (nanoseconds, s) ← fraction? s
  if s = ['Z'] then some ⟨day * secondsPerDay + second, leap + nanoseconds⟩ else none

/-! ## Padded numbers -/

theorem digitsValue_replicate_zero (count : Nat) (s : List Char) :
    digitsValue (List.replicate count '0' ++ s) = digitsValue s := by
  induction count with
  | zero => rfl
  | succ count ih => exact ih

theorem isDigit_of_mem_padded (h : c ∈ padded width n) : c.isDigit = true := by
  rcases List.mem_append.1 h with h | h
  · rw [List.eq_of_mem_replicate h]
    rfl
  · exact isDigit_of_mem_decimal h

theorem padded_ne_nil (width n : Nat) : padded width n ≠ [] :=
  List.append_ne_nil_of_right_ne_nil _ (decimal_ne_nil n)

theorem digitsValue_padded (width n : Nat) : digitsValue (padded width n) = n := by
  rw [padded, digitsValue_replicate_zero, digitsValue_decimal]

theorem natural?_padded (width n : Nat) : natural? (padded width n) = some n := by
  rw [natural?_of_digits (padded_ne_nil width n) fun c => isDigit_of_mem_padded, digitsValue_padded]

/-- The zeros in front fill the width, if the number is not too long for it. -/
theorem length_padded (hwidth : 0 < width) (h : n < 10 ^ width) :
    (padded width n).length = width := by
  have hle := (Nat.length_toDigits_le_iff (by decide) hwidth).2 h
  rw [padded, List.length_append, List.length_replicate]
  exact Nat.sub_add_cancel hle

theorem fixed?_padded (hwidth : 0 < width) (h : n < 10 ^ width) (rest : List Char) :
    fixed? width (padded width n ++ rest) = some (n, rest) := by
  have hlength := length_padded hwidth h
  have hle : width ≤ (padded width n ++ rest).length := by
    rw [List.length_append, hlength]
    exact Nat.le_add_right _ _
  rw [fixed?, if_pos hle, List.take_left' hlength, List.drop_left' hlength, natural?_padded]
  rfl

theorem behind?_cons (c : Char) (s : List Char) : behind? c (c :: s) = some s := if_pos rfl

/-! ## Fractions -/

/-- The digits of a fraction count as many nanoseconds as their places say. -/
theorem fraction?_padded (hwidth : 0 < width) (hle : width ≤ 9) (h : n < 10 ^ width) :
    fraction? ('.' :: padded width n ++ ['Z']) = some (n * 10 ^ (9 - width), ['Z']) := by
  have hread : leadingDigits? (padded width n ++ ['Z']) = some (padded width n, ['Z']) :=
    leadingDigits?_append (fun c => isDigit_of_mem_padded) (padded_ne_nil width n) (by simp)
  rw [List.cons_append, fraction?, hread]
  simp only [Option.bind_eq_bind, Option.bind_some, length_padded hwidth h, if_pos hle,
    digitsValue_padded]

theorem fraction?_fractionText (h : n < 1000000000) :
    fraction? (fractionText n ++ ['Z']) = some (n, ['Z']) := by
  rw [fractionText]
  split
  · next hzero =>
      subst hzero
      rfl
  · split
    · next hmillis =>
        rw [fraction?_padded (by decide) (by decide) (by omega)]
        congr 2
        omega
    · split
      · next hmicros =>
          rw [fraction?_padded (by decide) (by decide) (by omega)]
          congr 2
          omega
      · rw [fraction?_padded (by decide) (by decide) (by omega)]
        congr 2
        omega

/-! ## Timestamps -/

/-- The instants of the years 0 to 9999.  Only the last second of a minute may have a leap second
behind it. -/
structure Dated (i : Instant) : Prop where
  year_nonneg : 0 ≤ (Date.ofDays (i.seconds / secondsPerDay)).year
  year_le : (Date.ofDays (i.seconds / secondsPerDay)).year ≤ 9999
  nanoseconds_lt : i.nanoseconds < 2000000000
  leap : 1000000000 ≤ i.nanoseconds → i.seconds % 60 = 59

/-- A day in those years is read back from its date. -/
theorem day?_ofDays {day : Int} (hnonneg : 0 ≤ (Date.ofDays day).year)
    (hle : (Date.ofDays day).year ≤ 9999) (rest : List Char) :
    day? (yearText (Date.ofDays day).year ++ '-' :: (padded 2 (Date.ofDays day).month ++
      '-' :: (padded 2 (Date.ofDays day).day ++ rest))) = some (day, rest) := by
  obtain ⟨hdate, hnumber⟩ := Date.isDate_and_dayNumber_ofDays day
  generalize Date.ofDays day = date at *
  obtain ⟨year, hyear⟩ := Int.eq_ofNat_of_zero_le hnonneg
  have hmonth : date.month < 10 ^ 2 := by
    have := hdate.month_le
    omega
  have hday : date.day < 10 ^ 2 := by
    have := hdate.day_le.trans (Date.monthLength_le _ _)
    omega
  have hdate' : (⟨year, date.month, date.day⟩ : Date) = date := by
    rw [← hyear]
  have htext : yearText date.year = padded 4 year := by
    rw [yearText, if_neg (by omega), if_neg (by omega), hyear]
    rfl
  simp only [day?, htext, fixed?_padded (by decide : 0 < 4) (by omega : year < 10 ^ 4),
    fixed?_padded (by decide : 0 < 2) hmonth, fixed?_padded (by decide : 0 < 2) hday, behind?_cons,
    Option.bind_eq_bind, Option.bind_some, hdate', if_pos hdate, hnumber]

section

variable {hour minute second nanoseconds : Nat}

/-- What is shown of a second tells whether it is a leap second, and its nanoseconds. -/
theorem shown_eq (hsecond : second < 60) (hlt : nanoseconds < 2000000000)
    (hleap : 1000000000 ≤ nanoseconds → second = 59) :
    ∃ shownSecond fraction, shown second nanoseconds = (shownSecond, fraction) ∧
      shownSecond ≤ 60 ∧ min shownSecond 59 = second ∧ fraction < 1000000000 ∧
      shownSecond / 60 * 1000000000 + fraction = nanoseconds := by
  rcases Nat.lt_or_ge nanoseconds 1000000000 with hordinary | hlong
  · exact ⟨second, nanoseconds, if_pos hordinary, by omega, by omega, hordinary, by omega⟩
  · obtain rfl := hleap hlong
    exact ⟨60, nanoseconds - 1000000000, if_neg (Nat.not_lt.2 hlong), by omega, by omega, by omega,
      by omega⟩

theorem second?_padded (hhour : hour < 24) (hminute : minute < 60) (hsecond : second ≤ 60)
    (rest : List Char) :
    second? (padded 2 hour ++ ':' :: (padded 2 minute ++ ':' :: (padded 2 second ++ rest))) =
      some ((hour * 3600 + minute * 60 + min second 59, second / 60 * 1000000000), rest) := by
  simp only [second?, fixed?_padded (by decide : 0 < 2) (by omega : hour < 10 ^ 2),
    fixed?_padded (by decide : 0 < 2) (by omega : minute < 10 ^ 2),
    fixed?_padded (by decide : 0 < 2) (by omega : second < 10 ^ 2), behind?_cons,
    Option.bind_eq_bind, Option.bind_some, if_pos (And.intro hhour (And.intro hminute hsecond))]

end

/-- The hours, minutes and seconds of a time of day add up to it. -/
theorem clock_eq (second : Nat) :
    second / 3600 * 3600 + second / 60 % 60 * 60 + second % 60 = second := by
  omega

/-- What is written is read back. -/
theorem ofRfc3339?_rfc3339 (h : i.Dated) : ofRfc3339? i.rfc3339 = some i := by
  generalize hsecond : (i.seconds % secondsPerDay).toNat = second
  have hday : i.seconds / secondsPerDay * secondsPerDay + (second : Int) = i.seconds := by
    rw [← hsecond, secondsPerDay]
    omega
  have hlt : second < 86400 := by
    rw [← hsecond, secondsPerDay]
    omega
  have hleap (hlong : 1000000000 ≤ i.nanoseconds) : second % 60 = 59 := by
    have hlast := h.leap hlong
    rw [← hsecond, secondsPerDay]
    omega
  obtain ⟨shownSecond, fraction, hshown, hle, hmin, hfraction, hnanoseconds⟩ :=
    shown_eq (Nat.mod_lt second (by decide)) h.nanoseconds_lt hleap
  have hsum : second / 3600 * 3600 + second / 60 % 60 * 60 + min shownSecond 59 = second := by
    rw [hmin, clock_eq]
  simp only [ofRfc3339?, rfc3339, hsecond, hshown, String.toList_ofList, List.append_assoc,
    List.cons_append, day?_ofDays h.year_nonneg h.year_le,
    second?_padded (by omega : second / 3600 < 24) (by omega : second / 60 % 60 < 60) hle,
    fraction?_fractionText hfraction, behind?_cons, Option.bind_eq_bind, Option.bind_some,
    if_true, hsum, hday, hnanoseconds]

/-- A timestamp ends in the letter that stands for universal time. -/
theorem getLast?_rfc3339 (i : Instant) : i.rfc3339.toList.getLast? = some 'Z' := by
  rw [rfc3339, String.toList_ofList]
  exact List.getLast?_concat

end BenchSweep.Instant
