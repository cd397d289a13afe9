import Mathlib.Control.Monad.Basic
import QueryFederation.CommandLine.Program

/-!
# The order of points in time and of milliseconds

A range of time is accepted if its end does not lie before its start, and this is decided to the nanosecond.
Which samples the range holds is decided by milliseconds.  The two orders agree except about a leap second:
its milliseconds run on into the next second, which lies after it.

A range that begins in a leap second and ends early in the next second is therefore accepted and holds no
sample at all, not even one from the time of either end.  Every other range that is accepted holds both.
-/

namespace QueryFederation
namespace Instant

variable {start stop : Instant}

/-- Milliseconds of points in time fit into the timestamps of samples. -/
theorem toInt_ofInt_millis (instant : Instant) : (Int64.ofInt instant.millis).toInt = instant.millis := by
  have range := instant.seconds_range
  have valid := instant.nanos_valid
  unfold firstSecond lastSecond at range
  unfold nanosPerSecond at valid
  refine Int64.toInt_ofInt_of_le ?_ ?_ <;> unfold millis <;> omega

/-- A leap second has run on past the milliseconds of a point in time in the next second. -/
def HasOvertaken (start stop : Instant) : Prop :=
  nanosPerSecond ≤ start.nanos ∧ stop.seconds = start.seconds + 1 ∧
    stop.nanos / 1000000 < (start.nanos - nanosPerSecond) / 1000000

/-- Only a leap second is behind in milliseconds what does not lie before it. -/
theorem millis_lt_iff (inOrder : stop.isBefore start = false) :
    stop.millis < start.millis <-> start.HasOvertaken stop := by
  have startValid := start.nanos_valid
  have stopValid := stop.nanos_valid
  have order := of_decide_eq_false inOrder
  unfold nanosPerSecond at startValid stopValid
  unfold HasOvertaken millis nanosPerSecond
  omega

end Instant

namespace CommandLine

variable {start stop : Instant} {stepSeconds : Nat}

theorem isBefore_of_accepted (accepted : rangeFailure? start stop stepSeconds = none) :
    stop.isBefore start = false := by
  unfold rangeFailure? at accepted
  split at accepted
  · cases accepted
  · rename_i inOrder
    exact Bool.not_eq_true _ ▸ inOrder

/-- An accepted range holds the milliseconds of both its ends, unless it begins in a leap second that has
overtaken its end: then it holds nothing. -/
theorem accepted_range_holds_ends (accepted : rangeFailure? start stop stepSeconds = none) :
    (¬ start.HasOvertaken stop ->
      start.millis ≤ stop.millis ∧
        (QueryRange.mk start stop (.ofSeconds stepSeconds)).contains (Int64.ofInt start.millis) = true ∧
        (QueryRange.mk start stop (.ofSeconds stepSeconds)).contains (Int64.ofInt stop.millis) = true) ∧
    (start.HasOvertaken stop ->
      stop.millis < start.millis ∧
        forall timestamp,
          (QueryRange.mk start stop (.ofSeconds stepSeconds)).contains timestamp = false) := by
  have overtaken := Instant.millis_lt_iff (isBefore_of_accepted accepted)
  constructor
  · intro notOvertaken
    have inOrder : start.millis ≤ stop.millis := Int.not_lt.mp (mt overtaken.mp notOvertaken)
    simp only [QueryRange.contains, Instant.toInt_ofInt_millis, decide_eq_true_eq]
    exact ⟨inOrder, ⟨Int.le_refl _, inOrder⟩, inOrder, Int.le_refl _⟩
  · intro hasOvertaken
    have reversed : stop.millis < start.millis := overtaken.mpr hasOvertaken
    refine ⟨reversed, fun timestamp => decide_eq_false ?_⟩
    rintro ⟨above, below⟩
    exact absurd (Int.le_trans above below) (Int.not_le.mpr reversed)

/-- Both ends before 1970 and less than a millisecond apart. -/
theorem accepted_range_holds_ends_close :
    exists start stop, Instant.read "1969-12-31T23:59:59.0001Z" = .ok start ∧
      Instant.read "1969-12-31T23:59:59.0009Z" = .ok stop ∧ start.millis = -1000 ∧
      (QueryRange.mk start stop (.ofSeconds 15)).contains (Int64.ofInt start.millis) = true := by
  let start : Instant := ⟨-1, 100000, by decide, by decide⟩
  let stop : Instant := ⟨-1, 900000, by decide, by decide⟩
  have notOvertaken : ¬ start.HasOvertaken stop := fun hasOvertaken => absurd hasOvertaken.1 (by decide)
  have holds := (accepted_range_holds_ends (by decide : rangeFailure? start stop 15 = none)).1 notOvertaken
  exact ⟨start, stop, by decide +kernel, by decide +kernel, by decide, holds.2.1⟩

/-- From the middle of a leap second to the beginning of the next year: the range is accepted, and it holds
neither of its ends. -/
theorem leap_second_range_holds_nothing :
    exists start stop, Instant.read "2016-12-31T23:59:60.5Z" = .ok start ∧
      Instant.read "2017-01-01T00:00:00Z" = .ok stop ∧ rangeFailure? start stop 15 = none ∧
      stop.millis < start.millis ∧
      (QueryRange.mk start stop (.ofSeconds 15)).contains (Int64.ofInt start.millis) = false ∧
      (QueryRange.mk start stop (.ofSeconds 15)).contains (Int64.ofInt stop.millis) = false :=
  ⟨⟨1483228799, 1500000000, by decide, by decide⟩, ⟨1483228800, 0, by decide, by decide⟩,
    by decide +kernel, by decide +kernel, by decide, by decide, by decide, by decide⟩

end CommandLine
end QueryFederation
