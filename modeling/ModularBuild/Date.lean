import ModularBuild.Files.System
import ModularBuild.Number.Layout

/-!
# Calendar dates

The date of a moment in the Gregorian calendar. A year is taken to begin in March, so that the day a
leap year has more is its last, and months of 31, 30, 31, 30 and 31 days follow each other in runs
of 153 days.
-/

namespace ModularBuild

structure Date where
  year : Nat
  month : Nat
  day : Nat
deriving DecidableEq, Repr

namespace Date

def cycleDays : Nat := 146097

/-- Days from the first of March of the year 0 to the first of January 1970. -/
def epochDays : Nat := 719468

/-- The date a number of days after the first of January 1970. -/
def ofDays (days : Nat) : Date :=
  let days := days + epochDays
  let inCycle := days % cycleDays
  let yearInCycle := (inCycle - inCycle / 1460 + inCycle / 36524 - inCycle / 146096) / 365
  let inYear := inCycle - (365 * yearInCycle + yearInCycle / 4 - yearInCycle / 100)
  let fromMarch := (5 * inYear + 2) / 153
  let year := days / cycleDays * 400 + yearInCycle
  let day := inYear - (153 * fromMarch + 2) / 5 + 1
  if fromMarch < 10 then ⟨year, fromMarch + 3, day⟩ else ⟨year + 1, fromMarch - 9, day⟩

/-- The number of days from the first of January 1970 to a date that is not before it. -/
def days (d : Date) : Nat :=
  let year := if d.month ≤ 2 then d.year - 1 else d.year
  let fromMarch := (d.month + 9) % 12
  let inYear := (153 * fromMarch + 2) / 5 + d.day - 1
  365 * year + year / 4 - year / 100 + year / 400 + inYear - epochDays

def isLeapYear (year : Nat) : Bool :=
  year % 4 = 0 && (year % 100 ≠ 0 || year % 400 = 0)

def monthLength (year month : Nat) : Nat :=
  if month = 2 then (if isLeapYear year then 29 else 28)
  else if [4, 6, 9, 11].contains month then 30 else 31

/-- Whether there is such a date. -/
def isValid (d : Date) : Bool :=
  1 ≤ d.month && d.month ≤ 12 && 1 ≤ d.day && d.day ≤ monthLength d.year d.month

/-- The day of the week, from Sunday on. -/
def weekday (d : Date) : Nat := (d.days + 4) % 7

/-- The day of the year, from 1 on. -/
def dayOfYear (d : Date) : Nat := d.days - days ⟨d.year, 1, 1⟩ + 1

/-- The date of a moment. -/
def ofTime (t : Time) : Date := ofDays (t / (86400 * 1000000000))

/-- Two digits each of the year, the month and the day. -/
def sixDigits (d : Date) : String :=
  Text.numeral 10 2 (d.year % 100) ++ Text.numeral 10 2 d.month ++ Text.numeral 10 2 d.day

example : ofDays 0 = ⟨1970, 1, 1⟩ := by decide

example : ofDays 11016 = ⟨2000, 2, 29⟩ := by decide

example : ofDays 20453 = ⟨2025, 12, 31⟩ := by decide

example : days ⟨2000, 2, 29⟩ = 11016 := by decide

example : weekday ⟨2000, 2, 29⟩ = 2 := by decide

end Date

end ModularBuild
