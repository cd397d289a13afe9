import QueryFederation.Time.Instant

/-!
# Days and dates

Each day number has one date, and the date leads back to the number.  This rests on two facts: the year
of a day is found by one correction of an estimate from the mean length of a year, and the months of the
year are walked to the one that holds the day.  Neither has a bound, so the calendar is inverted over all
years, those before the year zero included.

A point in time has a date and a time of day in UTC, a leap second being the sixtieth of its minute, and
is found again from these.
-/

namespace QueryFederation
namespace Calendar

/-! ## Years -/

/-- The days of all months of a year. -/
def yearLength (leap : Bool) : Nat :=
  (monthLengths leap).foldr (· + ·) 0

/-- Between two years lie the days of all months of the first. -/
theorem daysBeforeYear_succ (year : Int) :
    daysBeforeYear (year + 1) = daysBeforeYear year + yearLength (isLeap year) := by
  have leap : isLeap year = true <-> year % 4 = 0 ∧ (year % 100 ≠ 0 ∨ year % 400 = 0) := by
    simp [isLeap]
  unfold daysBeforeYear
  cases isLeapYear : isLeap year with
  | true =>
      have rule := leap.mp isLeapYear
      have days : yearLength true = 366 := rfl
      rw [days]
      omega
  | false =>
      have rule := mt leap.mpr (Bool.not_eq_true _ ▸ isLeapYear)
      have days : yearLength false = 365 := rfl
      rw [days]
      omega

/-- A day lies in its year. -/
theorem yearOf_bounds (number : Int) :
    daysBeforeYear (yearOf number) ≤ number ∧ number < daysBeforeYear (yearOf number + 1) := by
  have below : daysBeforeYear ((number + 719162) * 400 / 146097 + 1 - 1) ≤ number := by
    unfold daysBeforeYear
    omega
  have above : number < daysBeforeYear ((number + 719162) * 400 / 146097 + 1 + 1 + 1) := by
    unfold daysBeforeYear
    omega
  unfold yearOf
  dsimp only
  generalize (number + 719162) * 400 / 146097 + 1 = guess at below above ⊢
  split
  · exact ⟨below, by rwa [Int.sub_add_cancel]⟩
  · split
    · exact ⟨‹_›, above⟩
    · omega

/-- The days of two years are in the order of the years. -/
theorem daysBeforeYear_le {early late : Int} (inOrder : early ≤ late) :
    daysBeforeYear early ≤ daysBeforeYear late := by
  unfold daysBeforeYear
  omega

/-! ## Months -/

/-- A walk over months ends in the one that holds the day. -/
theorem walkMonths_eq {lengths : List Nat} {before : Nat} (month : Nat)
    (inside : before < lengths.foldr (· + ·) 0) :
    exists index day, index < lengths.length ∧ day < lengths.getD index 0 ∧
      (lengths.take index).foldr (· + ·) 0 + day = before ∧
      walkMonths lengths month before = (month + index, day + 1) := by
  induction lengths generalizing month before with
  | nil => exact absurd inside (Nat.not_lt_zero before)
  | cons length rest inductionHypothesis =>
      rw [walkMonths]
      by_cases here : before < length
      · rw [if_pos here]
        exact ⟨0, before, Nat.zero_lt_succ _, here, Nat.zero_add before, rfl⟩
      · rw [if_neg here]
        rw [List.foldr_cons] at inside
        have insideRest : before - length < rest.foldr (· + ·) 0 := by omega
        rcases inductionHypothesis (month + 1) insideRest with
          ⟨index, day, isMonth, isDay, days, walk⟩
        refine ⟨index + 1, day, Nat.succ_lt_succ isMonth, isDay, ?_, ?_⟩
        · rw [List.take_succ_cons, List.foldr_cons]
          omega
        · rw [walk, Nat.add_assoc, Nat.add_comm 1 index]

theorem monthLength_le (leap : Bool) (month : Nat) : monthLength leap month ≤ 31 := by
  have lengths : forall length, length ∈ monthLengths leap -> length ≤ 31 := by
    cases leap <;> decide
  unfold monthLength
  split
  · exact Nat.zero_le 31
  · rw [List.getD_eq_getElem?_getD]
    cases found : (monthLengths leap)[month - 1]? with
    | none => exact Nat.zero_le 31
    | some length => exact lengths length (List.mem_of_getElem? found)

/-! ## Dates -/

/-- The parts of a date have two digits. -/
theorem month_day_lt {date : Date} (valid : isDate date = true) :
    date.month < 100 ∧ date.day < 100 := by
  have parts := of_decide_eq_true valid
  have length := monthLength_le (isLeap date.year) date.month
  omega

theorem ofDayNumber_spec (number : Int) :
    isDate (ofDayNumber number) = true ∧ dayNumber (ofDayNumber number) = number ∧
      (ofDayNumber number).year = yearOf number := by
  rcases yearOf_bounds number with ⟨fromFirst, beforeNext⟩
  rw [daysBeforeYear_succ] at beforeNext
  have inside : (number - daysBeforeYear (yearOf number)).toNat <
      yearLength (isLeap (yearOf number)) := by
    omega
  rcases walkMonths_eq 1 inside with ⟨index, day, isMonth, isDay, days, walk⟩
  have date : ofDayNumber number = ⟨yearOf number, 1 + index, day + 1⟩ := by
    rw [ofDayNumber, walk]
  have monthAt : 1 + index - 1 = index := Nat.add_sub_cancel_left 1 index
  have twelve : (monthLengths (isLeap (yearOf number))).length = 12 := rfl
  rw [date]
  refine ⟨?_, ?_, rfl⟩
  · simp only [isDate, decide_eq_true_eq, monthLength, monthAt]
    rw [if_neg (by omega)]
    omega
  · simp only [dayNumber, daysBeforeMonth, monthAt]
    omega

end Calendar

namespace Instant

/-! ## Points in time by date and time of day -/

/-- The year of a point in time is one of those that the calendar of the library has. -/
theorem civil_year_range (instant : Instant) :
    -262143 ≤ instant.civil.date.year ∧ instant.civil.date.year ≤ 262142 := by
  have year := (Calendar.ofDayNumber_spec (instant.seconds / 86400)).2.2
  rcases Calendar.yearOf_bounds (instant.seconds / 86400) with ⟨fromFirst, beforeNext⟩
  have range := instant.seconds_range
  unfold firstSecond lastSecond at range
  change -262143 ≤ (Calendar.ofDayNumber (instant.seconds / 86400)).year ∧
    (Calendar.ofDayNumber (instant.seconds / 86400)).year ≤ 262142
  rw [year]
  constructor
  · apply Int.not_lt.mp
    intro early
    have ended := Calendar.daysBeforeYear_le
      (show Calendar.yearOf (instant.seconds / 86400) + 1 ≤ -262143 by omega)
    have first : Calendar.daysBeforeYear (-262143) = -96465292 := by decide
    omega
  · apply Int.not_lt.mp
    intro late
    have begun := Calendar.daysBeforeYear_le
      (show 262143 ≤ Calendar.yearOf (instant.seconds / 86400) by omega)
    have last : Calendar.daysBeforeYear 262143 = 95026237 := by decide
    omega

theorem civil_nanos_lt (instant : Instant) : instant.civil.nanos < nanosPerSecond := by
  have valid := instant.nanos_valid
  simp only [civil, decide_eq_true_eq]
  split <;> omega

/-- The parts of a time of day are in their ranges, and the second is the sixtieth exactly in a leap
second. -/
theorem civil_timeOfDay (instant : Instant) :
    instant.civil.hour < 24 ∧ instant.civil.minute < 60 ∧ instant.civil.second ≤ 60 ∧
      (instant.civil.second = 60 <-> nanosPerSecond ≤ instant.nanos) := by
  have valid := instant.nanos_valid
  simp only [civil, decide_eq_true_eq]
  refine ⟨by omega, by omega, ?_, ?_⟩
  · split <;> omega
  · split <;> omega

theorem civil_isValid (instant : Instant) : instant.civil.isValid = true := by
  have isDate := (Calendar.ofDayNumber_spec (instant.seconds / 86400)).1
  rcases instant.civil_timeOfDay with ⟨hour, minute, second, _⟩
  rw [CivilTime.isValid, Bool.and_eq_true, Bool.and_eq_true, decide_eq_true_eq, decide_eq_true_eq]
  have utc : instant.civil.offset = 0 := rfl
  exact ⟨⟨instant.civil_year_range, isDate⟩, hour, minute, second, instant.civil_nanos_lt, by omega⟩

theorem civil_seconds (instant : Instant) : instant.civil.seconds = instant.seconds := by
  have number := (Calendar.ofDayNumber_spec (instant.seconds / 86400)).2.1
  have valid := instant.nanos_valid
  simp only [CivilTime.seconds, civil, number, decide_eq_true_eq]
  split <;> omega

/-- A leap second is told by its second and not by its nanoseconds. -/
theorem civil_nanos (instant : Instant) :
    instant.civil.nanos + (if instant.civil.second = 60 then nanosPerSecond else 0) = instant.nanos := by
  have leap := instant.civil_timeOfDay.2.2.2
  by_cases isLeap : nanosPerSecond ≤ instant.nanos
  · rw [if_pos (leap.mpr isLeap)]
    simp only [civil, isLeap, decide_true, if_true]
    omega
  · rw [if_neg (mt leap.mp isLeap)]
    simp only [civil, isLeap, decide_false, Bool.false_eq_true, if_false]
    omega

/-- A point in time is found again from its date and time of day. -/
theorem instant?_civil (instant : Instant) : instant.civil.instant? = some instant := by
  rw [CivilTime.instant?, if_pos instant.civil_isValid, instant.civil_seconds, instant.civil_nanos,
    instant.ofParts?_parts]

end Instant
end QueryFederation
