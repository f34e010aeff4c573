import BenchSweep.Instant

/-!
# The calendar

The Gregorian calendar by its own rules, and the dates of days by it.

* `Date.isLeap`, `Date.monthLength` : the rules of the calendar.
* `Date.IsDate` : the dates there are.
* `Date.dayNumber` : the day on which a date is.
* `Date.isDate_and_dayNumber_ofDays` : every day has a date that there is, and it is the date of
  that day.
-/

namespace BenchSweep.Date

/-! ## Rules -/

/-- Does the year have a leap day?  Every fourth year has one, but of the years that end a century
only every fourth. -/
def isLeap (year : Int) : Bool := year % 4 = 0 ∧ (year % 100 ≠ 0 ∨ year % 400 = 0)

/-- The number of days of a month, in a leap year or in another one. -/
def monthLength (leap : Bool) : (month : Nat) → Nat
  | 2 => if leap then 29 else 28
  | 4 | 6 | 9 | 11 => 30
  | _ => 31

theorem monthLength_le (leap : Bool) (month : Nat) : monthLength leap month ≤ 31 := by
  rw [monthLength.eq_def]
  split
  · split <;> decide
  all_goals decide

/-- Is there such a date? -/
structure IsDate (d : Date) : Prop where
  month_pos : 1 ≤ d.month
  month_le : d.month ≤ 12
  day_pos : 1 ≤ d.day
  day_le : d.day ≤ monthLength (isLeap d.year) d.month

instance (d : Date) : Decidable d.IsDate :=
  decidable_of_iff (1 ≤ d.month ∧ d.month ≤ 12 ∧ 1 ≤ d.day ∧
      d.day ≤ monthLength (isLeap d.year) d.month)
    ⟨fun ⟨hm, hm', hd, hd'⟩ => ⟨hm, hm', hd, hd'⟩,
      fun h => ⟨h.month_pos, h.month_le, h.day_pos, h.day_le⟩⟩

/-- The number of days of a year in front of a month. -/
def daysBeforeMonth (leap : Bool) : (month : Nat) → Nat
  | 0 => 0
  | 1 => 0
  | month + 2 => daysBeforeMonth leap (month + 1) + monthLength leap (month + 1)

/-- The number of days from the start of the year 0 to the start of a year: 365 for each year, and
the leap days in between, that of the year 0 among them. -/
def daysBeforeYear (year : Int) : Int :=
  365 * year + (year - 1) / 4 - (year - 1) / 100 + (year - 1) / 400 + 1

/-- The number of days from the first of January 1970 to a date. -/
def dayNumber (d : Date) : Int :=
  daysBeforeYear d.year - daysBeforeYear 1970 + daysBeforeMonth (isLeap d.year) d.month +
    (d.day - 1)

/-! ## Years of an era -/

/-- The year of its era, counted from March on, that a day of the era is in. -/
def yearOfEra (day : Nat) : Nat := (day - day / 1460 + day / 36524 - day / 146096) / 365

/-- The days of an era by its centuries, their cycles of four years, and the years of these.  The
last year of a cycle has a leap day at its end, but for the last cycle of the first three
centuries. -/
theorem exists_cycles {day : Nat} (h : day < 146097) :
    ∃ century cycle year left, century ≤ 3 ∧ cycle ≤ 24 ∧ year ≤ 3 ∧ left ≤ 365 ∧
      (left = 365 → year = 3 ∧ (cycle = 24 → century = 3)) ∧
      day = 36524 * century + 1461 * cycle + 365 * year + left := by
  by_cases hlast : day = 146096
  · exact ⟨3, 24, 3, 365, by omega, by omega, by omega, by omega, by omega, by omega⟩
  · let rest := day % 36524 % 1461
    by_cases hleap : rest = 1460
    · exact ⟨day / 36524, day % 36524 / 1461, 3, 365, by omega, by omega, by omega, by omega,
        by omega, by omega⟩
    · exact ⟨day / 36524, day % 36524 / 1461, rest / 365, rest % 365, by omega, by omega,
        by omega, by omega, by omega, by omega⟩

theorem yearOfEra_eq {century cycle year left : Nat} (hcentury : century ≤ 3) (hcycle : cycle ≤ 24)
    (hyear : year ≤ 3) (hleft : left ≤ 365)
    (hleap : left = 365 → year = 3 ∧ (cycle = 24 → century = 3)) :
    yearOfEra (36524 * century + 1461 * cycle + 365 * year + left) =
      100 * century + 4 * cycle + year := by
  by_cases hlast : left = 365 ∧ cycle = 24
  · -- the last day of the era
    obtain ⟨rfl, rfl⟩ := hlast
    obtain ⟨rfl, hcentury⟩ := hleap rfl
    obtain rfl := hcentury rfl
    rfl
  · generalize hday : 36524 * century + 1461 * cycle + 365 * year + left = day
    -- the days that are over a cycle's 1460 make another one when its last year is far gone
    let excess := (24 * century + cycle + 365 * year + left) / 1460
    have hexcess : excess = 0 ∨ excess = 1 ∧ year = 3 ∧ 1 ≤ left := by omega
    have hyears : day / 1460 = 25 * century + cycle + excess := by omega
    have hcenturies : day / 36524 = century := by omega
    have hera : day / 146096 = 0 := by omega
    have hsum : day - day / 1460 + day / 36524 - day / 146096 =
        365 * (100 * century + 4 * cycle + year) + (left - excess) := by
      rw [hyears, hcenturies, hera]
      omega
    have hrest : left - excess < 365 := by omega
    rw [yearOfEra, hsum]
    omega

/-! ## Months from March on -/

/-- A month from March on holds the days from its first day to the first of the next one. -/
theorem monthFromMarch_bounds {left : Nat} (h : left ≤ 365) :
    let month := (5 * left + 2) / 153
    month ≤ 11 ∧ (153 * month + 2) / 5 ≤ left ∧ left < (153 * (month + 1) + 2) / 5 := by
  intro month
  omega

/-- The months from March to December are as long as they are counted, and so are the days in front
of them, behind January and February. -/
theorem march_to_december : ∀ leap : Bool, ∀ month < 10,
    daysBeforeMonth leap (month + 3) = 59 + leap.toNat + (153 * month + 2) / 5 ∧
      monthLength leap (month + 3) = (153 * (month + 1) + 2) / 5 - (153 * month + 2) / 5 := by
  decide

/-- January and February come last. -/
theorem january_and_february : ∀ leap : Bool, ∀ month < 2,
    daysBeforeMonth leap (month + 1) + 306 = (153 * (month + 10) + 2) / 5 ∧
      monthLength leap (month + 1) = if month = 0 then 31 else 28 + leap.toNat := by
  decide

/-! ## Years from March on -/

/-- The number of days from the first of March of the year 0 to that of another year. -/
def daysBeforeMarch (year : Int) : Int := 365 * year + year / 4 - year / 100 + year / 400

/-- A year is as long as its rule says. -/
theorem daysBeforeYear_succ (year : Int) :
    daysBeforeYear (year + 1) = daysBeforeYear year + 365 + (isLeap year).toNat := by
  by_cases hleap : year % 4 = 0 ∧ (year % 100 ≠ 0 ∨ year % 400 = 0)
  · rw [isLeap, decide_eq_true hleap, Bool.toNat_true, daysBeforeYear, daysBeforeYear]
    omega
  · rw [isLeap, decide_eq_false hleap, Bool.toNat_false, daysBeforeYear, daysBeforeYear]
    omega

/-- Of the 366 days of the year 0, sixty are in front of March, and 306 of every year behind it. -/
theorem daysBeforeYear_succ_eq_march (year : Int) :
    daysBeforeYear (year + 1) = daysBeforeMarch year + 366 := by
  rw [daysBeforeYear, daysBeforeMarch, Int.add_sub_cancel]
  omega

theorem daysBeforeYear_epoch : daysBeforeYear 1970 = 719528 := by decide

section

variable {start : Int} {month left : Nat}

/-- The dates from March to December, from the days since March. -/
theorem isDate_march_to_december (hmonth : month < 10) (hfrom : (153 * month + 2) / 5 ≤ left)
    (hto : left < (153 * (month + 1) + 2) / 5) :
    let date : Date := ⟨start, month + 3, left - (153 * month + 2) / 5 + 1⟩
    date.IsDate ∧ date.dayNumber = daysBeforeMarch start + left - 719468 := by
  obtain ⟨hbefore, hlength⟩ := march_to_december (isLeap start) month hmonth
  have hday : left - (153 * month + 2) / 5 + 1 ≤ monthLength (isLeap start) (month + 3) := by
    omega
  have hsucc := daysBeforeYear_succ start
  have hmarch := daysBeforeYear_succ_eq_march start
  refine ⟨⟨Nat.le_add_left 1 _, Nat.succ_le_succ (by omega), Nat.le_add_left 1 _, hday⟩, ?_⟩
  rw [dayNumber, hbefore, daysBeforeYear_epoch]
  dsimp only
  omega

/-- The dates of January and February, from the days since March. -/
theorem isDate_january_and_february (hmonth : month < 2)
    (hfrom : (153 * (month + 10) + 2) / 5 ≤ left) (hto : left < (153 * (month + 11) + 2) / 5)
    (hleft : left ≤ 365) (hleap : left = 365 → isLeap (start + 1) = true) :
    let date : Date := ⟨start + 1, month + 1, left - (153 * (month + 10) + 2) / 5 + 1⟩
    date.IsDate ∧ date.dayNumber = daysBeforeMarch start + left - 719468 := by
  obtain ⟨hbefore, hlength⟩ := january_and_february (isLeap (start + 1)) month hmonth
  have hday : left - (153 * (month + 10) + 2) / 5 + 1 ≤
      monthLength (isLeap (start + 1)) (month + 1) := by
    rw [hlength]
    by_cases hlast : left = 365
    · rw [hleap hlast, Bool.toNat_true]
      split <;> omega
    · split <;> omega
  have hmarch := daysBeforeYear_succ_eq_march start
  refine ⟨⟨Nat.le_add_left 1 _, Nat.succ_le_succ (by omega), Nat.le_add_left 1 _, hday⟩, ?_⟩
  rw [dayNumber, daysBeforeYear_epoch]
  dsimp only
  omega

end

/-! ## Dates of days -/

section

variable (era : Int) {century cycle year left : Nat}

/-- The date of a day, from the cycles that the day is in. -/
theorem ofDays_eq (hcentury : century ≤ 3) (hcycle : cycle ≤ 24) (hyear : year ≤ 3)
    (hleft : left ≤ 365) (hleap : left = 365 → year = 3 ∧ (cycle = 24 → century = 3)) :
    ofDays (146097 * era + (36524 * century + 1461 * cycle + 365 * year + left : Nat) - 719468) =
      let start := 400 * era + (100 * century + 4 * cycle + year : Nat)
      let month := (5 * left + 2) / 153
      let day := left - (153 * month + 2) / 5 + 1
      if month < 10 then ⟨start, month + 3, day⟩ else ⟨start + 1, month - 9, day⟩ := by
  have hyears := yearOfEra_eq hcentury hcycle hyear hleft hleap
  have hrest : 36524 * century + 1461 * cycle + 365 * year + left -
      (365 * (100 * century + 4 * cycle + year) + (100 * century + 4 * cycle + year) / 4 -
        (100 * century + 4 * cycle + year) / 100) = left := by omega
  have hlt : 36524 * century + 1461 * cycle + 365 * year + left < 146097 := by omega
  generalize 36524 * century + 1461 * cycle + 365 * year + left = day at *
  have hshift : 146097 * era + (day : Int) - 719468 + epochShift = 146097 * era + day := by
    rw [epochShift]
    omega
  have hera : (146097 * era + (day : Int)) / daysPerEra = era := by
    rw [daysPerEra]
    omega
  have hday : ((146097 * era + (day : Int)) % daysPerEra).toNat = day := by
    rw [daysPerEra]
    omega
  rw [yearOfEra] at hyears
  have hmonth := (monthFromMarch_bounds hleft).1
  simp only [ofDays, hshift, hera, hday, hyears, hrest]
  by_cases hspring : (5 * left + 2) / 153 < 10
  · rw [if_pos hspring, if_pos hspring, if_neg (by omega)]
    congr 1
    omega
  · rw [if_neg hspring, if_neg hspring, if_pos (by omega)]
    congr 1
    omega

/-- An era has 97 leap days, its centuries have 24 each, and a cycle of four years has its one at
its end. -/
theorem daysBeforeMarch_era (hcentury : century ≤ 3) (hcycle : cycle ≤ 24) (hyear : year ≤ 3) :
    daysBeforeMarch (400 * era + (100 * century + 4 * cycle + year : Nat)) =
      146097 * era + (36524 * century + 1461 * cycle + 365 * year : Nat) := by
  have hfour : (400 * era + (100 * century + 4 * cycle + year : Nat)) / 4 =
      100 * era + (25 * century + cycle : Nat) := by omega
  have hhundred : (400 * era + (100 * century + 4 * cycle + year : Nat)) / 100 =
      4 * era + century := by omega
  have hera : (400 * era + (100 * century + 4 * cycle + year : Nat)) / 400 = era := by omega
  rw [daysBeforeMarch, hfour, hhundred, hera]
  omega

/-- The leap day at the end of a year that is counted from March on is there by the rule. -/
theorem isLeap_of_left (hcycle : cycle ≤ 24) (hleap : year = 3 ∧ (cycle = 24 → century = 3)) :
    isLeap (400 * era + (100 * century + 4 * cycle + year : Nat) + 1) = true := by
  rw [isLeap, decide_eq_true_eq]
  omega

end

/-- Every day has a date, and it is the date of that day. -/
theorem isDate_and_dayNumber_ofDays (n : Int) :
    (ofDays n).IsDate ∧ (ofDays n).dayNumber = n := by
  obtain ⟨century, cycle, year, left, hcentury, hcycle, hyear, hleft, hleap, hday⟩ :=
    exists_cycles (by omega : ((n + 719468) % 146097).toNat < 146097)
  let era := (n + 719468) / 146097
  have hn : n = 146097 * era +
      (36524 * century + 1461 * cycle + 365 * year + left : Nat) - 719468 := by
    omega
  have hmarch : daysBeforeMarch (400 * era + (100 * century + 4 * cycle + year : Nat)) + left -
      719468 = n := by
    rw [daysBeforeMarch_era era hcentury hcycle hyear]
    omega
  have hdate := ofDays_eq era hcentury hcycle hyear hleft hleap
  rw [← hn] at hdate
  obtain ⟨hmonth, hfrom, hto⟩ := monthFromMarch_bounds hleft
  rw [hdate, ← hmarch]
  dsimp only
  split
  · next hspring => exact isDate_march_to_december hspring hfrom hto
  · next hwinter =>
      obtain ⟨month, heq⟩ := Nat.exists_eq_add_of_le' (Nat.not_lt.1 hwinter)
      rw [heq] at hmonth hfrom hto ⊢
      exact isDate_january_and_february (by omega) hfrom hto hleft
        fun hlast => isLeap_of_left era hcycle (hleap hlast)

end BenchSweep.Date
