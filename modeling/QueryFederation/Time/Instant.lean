import QueryFederation.Time.Calendar
import QueryFederation.Time.Duration

/-!
# Points in time

A point in time is counted in seconds from the beginning of 1970, without leap seconds, and in
nanoseconds within the second.  A leap second is written as the second before it with a thousand
million to two thousand million nanoseconds, which is possible only in the last second of a minute.

The range is that of the years -262143 to 262142.  Both conditions belong to the type, so every
point in time has a calendar date and a written form.
-/

namespace QueryFederation

/-- The first second of the year -262143. -/
def firstSecond : Int :=
  -8334601228800

/-- The last second of the year 262142. -/
def lastSecond : Int :=
  8210266876799

/-- A point in time. -/
@[ext]
structure Instant where
  seconds : Int
  nanos : Nat
  seconds_range : firstSecond ≤ seconds ∧ seconds ≤ lastSecond
  nanos_valid : nanos < nanosPerSecond ∨ (nanos < 2 * nanosPerSecond ∧ seconds % 60 = 59)
  deriving DecidableEq, Repr

namespace Instant

/-- The beginning of 1970. -/
def epoch : Instant :=
  ⟨0, 0, by decide, by decide⟩

instance : Inhabited Instant :=
  ⟨epoch⟩

/-- The point in time with the given seconds and nanoseconds, if there is one. -/
def ofParts? (seconds : Int) (nanos : Nat) : Option Instant :=
  if range : firstSecond ≤ seconds ∧ seconds ≤ lastSecond then
    if valid : nanos < nanosPerSecond ∨ (nanos < 2 * nanosPerSecond ∧ seconds % 60 = 59) then
      some ⟨seconds, nanos, range, valid⟩
    else none
  else none

/-- Every point in time is rebuilt from its parts. -/
theorem ofParts?_parts (instant : Instant) :
    ofParts? instant.seconds instant.nanos = some instant := by
  simp only [ofParts?, instant.seconds_range, instant.nanos_valid, and_self, dite_true]

/-- The point in time a number of milliseconds after the beginning of 1970, if there is one.  Both
parts are floored, so the nanoseconds count forward also before 1970. -/
def ofMillis? (millis : Int) : Option Instant :=
  ofParts? (millis / 1000) ((millis % 1000).toNat * 1000000)

/-- The milliseconds from the beginning of 1970, floored.  Within a leap second they run on past
the full second. -/
def millis (instant : Instant) : Int :=
  instant.seconds * 1000 + (instant.nanos / 1000000 : Nat)

/-- Whether one point in time lies before another.  A leap second lies after the whole second that
it extends. -/
def isBefore (first second : Instant) : Bool :=
  decide (first.seconds < second.seconds ∨
    (first.seconds = second.seconds ∧ first.nanos < second.nanos))

end Instant

/-- A date and a time of day at a fixed distance from UTC.  `offset` is in seconds, positive to the
east.  The second may be 60, and `nanos` is the fraction of the second. -/
structure CivilTime where
  date : Date
  hour : Nat
  minute : Nat
  second : Nat
  nanos : Nat
  offset : Int
  deriving DecidableEq, Repr

namespace CivilTime

/-- Whether each part is in its range. -/
def isValid (civil : CivilTime) : Bool :=
  decide (-262143 ≤ civil.date.year ∧ civil.date.year ≤ 262142) &&
    Calendar.isDate civil.date &&
    decide (civil.hour < 24 ∧ civil.minute < 60 ∧ civil.second ≤ 60 ∧
      civil.nanos < nanosPerSecond ∧ -86400 < civil.offset ∧ civil.offset < 86400)

/-- The seconds from the beginning of 1970.  The sixtieth second counts with the one before it. -/
def seconds (civil : CivilTime) : Int :=
  Calendar.dayNumber civil.date * 86400 + civil.hour * 3600 + civil.minute * 60 +
    (min civil.second 59 : Nat) - civil.offset

/-- The point in time meant, if there is one. -/
def instant? (civil : CivilTime) : Option Instant :=
  if civil.isValid then
    Instant.ofParts? civil.seconds
      (civil.nanos + if civil.second = 60 then nanosPerSecond else 0)
  else none

end CivilTime

/-- The date and time of day in UTC. -/
def Instant.civil (instant : Instant) : CivilTime :=
  let ofDay := (instant.seconds % 86400).toNat
  let leap := decide (nanosPerSecond ≤ instant.nanos)
  { date := Calendar.ofDayNumber (instant.seconds / 86400)
    hour := ofDay / 3600
    minute := ofDay % 3600 / 60
    second := ofDay % 60 + if leap then 1 else 0
    nanos := if leap then instant.nanos - nanosPerSecond else instant.nanos
    offset := 0 }

end QueryFederation
