/-!
# The proleptic Gregorian calendar

Dates are counted in days from 1 January 1970.  The calendar rule is extended without limit in both
directions, and the year before year one is year zero.

The day number of a date is a sum of three parts: the days of the earlier years, the days of the
earlier months of its year, and its day of the month.  The way back first estimates the year from
the mean length of a year and then corrects the estimate by at most one; within the year the months
are walked from January on.
-/

namespace QueryFederation

/-- A day of the calendar by year, month and day of the month. -/
structure Date where
  year : Int
  month : Nat
  day : Nat
  deriving DecidableEq, Repr

namespace Calendar

/-- A year with a 29 February. -/
def isLeap (year : Int) : Bool :=
  year % 4 == 0 && (year % 100 != 0 || year % 400 == 0)

/-- The lengths of the months of a year, from January on. -/
def monthLengths (leap : Bool) : List Nat :=
  [31, if leap then 29 else 28, 31, 30, 31, 30, 31, 31, 30, 31, 30, 31]

/-- The length of a month; zero for a month that does not exist. -/
def monthLength (leap : Bool) (month : Nat) : Nat :=
  if month = 0 then 0 else (monthLengths leap).getD (month - 1) 0

/-- The days of a year before the first of a month. -/
def daysBeforeMonth (leap : Bool) (month : Nat) : Nat :=
  ((monthLengths leap).take (month - 1)).foldr (· + ·) 0

/-- The days from 1 January 1970 to the first of January of a year. -/
def daysBeforeYear (year : Int) : Int :=
  365 * (year - 1) + (year - 1) / 4 - (year - 1) / 100 + (year - 1) / 400 - 719162

/-- Whether a date exists. -/
def isDate (date : Date) : Bool :=
  decide (1 ≤ date.month ∧ date.month ≤ 12 ∧ 1 ≤ date.day ∧
    date.day ≤ monthLength (isLeap date.year) date.month)

/-- The days from 1 January 1970 to a date. -/
def dayNumber (date : Date) : Int :=
  daysBeforeYear date.year + daysBeforeMonth (isLeap date.year) date.month + ((date.day : Int) - 1)

/-- The year in which a day number falls. -/
def yearOf (number : Int) : Int :=
  let guess := (number + 719162) * 400 / 146097 + 1
  if number < daysBeforeYear guess then guess - 1
  else if daysBeforeYear (guess + 1) ≤ number then guess + 1
  else guess

/-- Walk the months: the month, counted from `month` on, and the day of the month in which the day
with a given number of days before it falls. -/
def walkMonths : List Nat -> Nat -> Nat -> Nat × Nat
  | [], month, before => (month, before + 1)
  | length :: lengths, month, before =>
      if before < length then (month, before + 1)
      else walkMonths lengths (month + 1) (before - length)

/-- The date with a given day number. -/
def ofDayNumber (number : Int) : Date :=
  let year := yearOf number
  let before := (number - daysBeforeYear year).toNat
  let (month, day) := walkMonths (monthLengths (isLeap year)) 1 before
  ⟨year, month, day⟩

end Calendar
end QueryFederation
