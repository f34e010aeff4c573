import BenchSweep.Text.Decimal

/-!
# Instants

Points in time, as seconds and nanoseconds since the start of the year 1970, and
their form in RFC 3339.

* `Date.ofDays` : the date of the Gregorian calendar on a day.
* `Lapse` : a length of time, which may go back.
* `Instant.rfc3339` : an instant in words.
* `Instant.secondsUntil` : the whole seconds between two instants.
-/

namespace BenchSweep

open Text

/-! ## Dates -/

/-- A day of the Gregorian calendar. -/
structure Date where
  year : Int
  month : Nat
  day : Nat
  deriving DecidableEq, Repr

namespace Date

/-- The number of days from the start of March of the year 0 to that of 1970. -/
def epochShift : Int := 719468

/-- The number of days in four hundred years. -/
def daysPerEra : Int := 146097

/-- The date that lies some days after the first of January 1970.  Years are counted
from March on, so that the leap day is their last, in eras of four hundred. -/
def ofDays (days : Int) : Date :=
  let shifted := days + epochShift
  let era := shifted / daysPerEra
  let dayOfEra := (shifted % daysPerEra).toNat
  let yearOfEra :=
    (dayOfEra - dayOfEra / 1460 + dayOfEra / 36524 - dayOfEra / 146096) / 365
  let dayOfYear := dayOfEra - (365 * yearOfEra + yearOfEra / 4 - yearOfEra / 100)
  let fromMarch := (5 * dayOfYear + 2) / 153
  let month := if fromMarch < 10 then fromMarch + 3 else fromMarch - 9
  { year := yearOfEra + era * 400 + if month ≤ 2 then 1 else 0
    month
    day := dayOfYear - (153 * fromMarch + 2) / 5 + 1 }

end Date

/-! ## Lengths of time -/

/-- The number of nanoseconds in a second. -/
def nanosPerSecond : Int := 1000000000

/-- A length of time: whole seconds, of which there are fewer than none if it goes back, and
nanoseconds after them. -/
structure Lapse where
  seconds : Int
  nanoseconds : Nat
  deriving DecidableEq, Repr

/-- The seconds of a length of time, without the broken part.  Going back, it is the nanoseconds
that make the last second a broken one. -/
def Lapse.wholeSeconds (l : Lapse) : Int :=
  if l.seconds < 0 ∧ 0 < l.nanoseconds then l.seconds + 1 else l.seconds

/-! ## Instants -/

/-- A point in time: seconds since the start of 1970, and nanoseconds after them.  In a leap second
they go on from those of the second before it. -/
structure Instant where
  seconds : Int
  nanoseconds : Nat
  deriving DecidableEq, Repr

namespace Instant

/-- A number in at least `width` digits. -/
def padded (width n : Nat) : List Char :=
  List.replicate (width - (decimal n).length) '0' ++ decimal n

/-- A year: four digits, and a sign in front of any other than those of 0 to 9999. -/
def yearText (year : Int) : List Char :=
  if year < 0 then '-' :: padded 4 year.natAbs
  else if 9999 < year then '+' :: padded 4 year.natAbs
  else padded 4 year.natAbs

/-- The fraction of a second, in as few of three, six or nine digits as it needs. -/
def fractionText (nanoseconds : Nat) : List Char :=
  if nanoseconds = 0 then []
  else if nanoseconds % 1000000 = 0 then '.' :: padded 3 (nanoseconds / 1000000)
  else if nanoseconds % 1000 = 0 then '.' :: padded 6 (nanoseconds / 1000)
  else '.' :: padded 9 nanoseconds

/-- The number of seconds in a day. -/
def secondsPerDay : Int := 86400

/-- The second of a minute and the nanoseconds after it as they are written: those of a leap second
stand behind a second of its own. -/
def shown (second nanoseconds : Nat) : Nat × Nat :=
  if nanoseconds < 1000000000 then (second, nanoseconds)
  else (second + 1, nanoseconds - 1000000000)

/-- The form of an instant in RFC 3339, in universal time. -/
def rfc3339 (i : Instant) : String :=
  let date := Date.ofDays (i.seconds / secondsPerDay)
  let second := (i.seconds % secondsPerDay).toNat
  let (shownSecond, fraction) := shown (second % 60) i.nanoseconds
  String.ofList <|
    yearText date.year ++ '-' :: padded 2 date.month ++ '-' :: padded 2 date.day ++
      'T' :: padded 2 (second / 3600) ++ ':' :: padded 2 (second / 60 % 60) ++
      ':' :: padded 2 shownSecond ++ fractionText fraction ++ ['Z']

/-- The leap second that lies between two instants and is not in the difference of their seconds.
It is looked for by the time of day alone: one of the instants is in a leap second, and the other
one is later in the day. -/
def leapBetween (i j : Instant) : Int :=
  if i.seconds % secondsPerDay < j.seconds % secondsPerDay ∧ 1000000000 ≤ i.nanoseconds then 1
  else if j.seconds % secondsPerDay < i.seconds % secondsPerDay ∧ 1000000000 ≤ j.nanoseconds then -1
  else 0

/-- The time from one instant to another: the nanoseconds borrow from the seconds, or carry into
them. -/
def lapseUntil (i j : Instant) : Lapse :=
  let fraction : Int := j.nanoseconds - i.nanoseconds
  { seconds := j.seconds - i.seconds + i.leapBetween j + fraction / nanosPerSecond
    nanoseconds := (fraction % nanosPerSecond).toNat }

/-- The seconds from one instant to another, without the broken part. -/
def secondsUntil (i j : Instant) : Int := (i.lapseUntil j).wholeSeconds

end Instant

end BenchSweep
