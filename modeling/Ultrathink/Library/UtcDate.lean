import Mathlib.Algebra.Ring.Int.Defs

/-!
# UTC dates

The proleptic Gregorian calendar as `Date` computes with it: days are counted from the first
day of 1970, months from zero. A day is the sum of the days before its year, those before its
month and its date.
-/

namespace Ultrathink.Library.UtcDate

open List

/-- `DayFromYear` -/
def dayFromYear (y : ℤ) : ℤ :=
  365 * (y - 1970) + (y - 1969) / 4 - (y - 1901) / 100 + (y - 1601) / 400

def isLeap (y : ℤ) : Bool := y % 4 = 0 && (y % 100 ≠ 0 || y % 400 = 0)

/-- The year of a day, from an estimate that is off by one year at most. -/
def yearFromDay (day : ℤ) : ℤ :=
  let y := day * 400 / 146097 + 1970
  if day < dayFromYear y then y - 1 else if dayFromYear (y + 1) ≤ day then y + 1 else y

def monthLengths (leap : Bool) : List ℤ :=
  [31, if leap then 29 else 28, 31, 30, 31, 30, 31, 31, 30, 31, 30, 31]

/-- The days of the year before month `m`. -/
def daysBefore (leap : Bool) (m : Nat) : ℤ := ((monthLengths leap).take m).sum

/-- The place of the span that holds a day, and the day in that span. -/
def spanOf : List ℤ → ℤ → Nat × ℤ
  | [], d => (0, d)
  | length :: rest, d =>
    if d < length then (0, d)
    else
      let (place, inside) := spanOf rest (d - length)
      (place + 1, inside)

/-- `MakeDay`: a month past the year moves the year. -/
def makeDay (y m d : ℤ) : ℤ :=
  dayFromYear (y + m / 12) + daysBefore (isLeap (y + m / 12)) (m % 12).toNat + (d - 1)

def dayInYear (day : ℤ) : ℤ := day - dayFromYear (yearFromDay day)

def monthFromDay (day : ℤ) : Nat :=
  (spanOf (monthLengths (isLeap (yearFromDay day))) (dayInYear day)).1

def dateFromDay (day : ℤ) : ℤ :=
  (spanOf (monthLengths (isLeap (yearFromDay day))) (dayInYear day)).2 + 1

def msPerDay : ℤ := 86400000

def msPerHour : ℤ := 3600000

def msPerMinute : ℤ := 60000

def msPerSecond : ℤ := 1000

def getUTCFullYear (t : ℤ) : ℤ := yearFromDay (t / msPerDay)

def getUTCMonth (t : ℤ) : ℤ := monthFromDay (t / msPerDay)

def getUTCDate (t : ℤ) : ℤ := dateFromDay (t / msPerDay)

def getUTCHours (t : ℤ) : ℤ := t / msPerHour % 24

def getUTCMinutes (t : ℤ) : ℤ := t / msPerMinute % 60

def getUTCSeconds (t : ℤ) : ℤ := t / msPerSecond % 60

def getUTCMilliseconds (t : ℤ) : ℤ := t % 1000

/-- `setUTCFullYear(y, m, d)` and `setUTCHours(h, min, s, ms)` on the first day of 1970. -/
def makeTime (y m d h min s ms : ℤ) : ℤ :=
  makeDay y m d * msPerDay + (h * msPerHour + min * msPerMinute + s * msPerSecond + ms)

end Ultrathink.Library.UtcDate
