import QueryFederation.Text.Digits

/-!
# Lengths of time

A length of time is a whole number of seconds and a number of nanoseconds below one second.  Both
bounds are part of the type, so two lengths are equal exactly when their parts are, and every
length has one written form.
-/

namespace QueryFederation

/-- The nanoseconds of a second. -/
def nanosPerSecond : Nat :=
  1000000000

/-- A length of time of at most `2 ^ 64` seconds. -/
@[ext]
structure Duration where
  seconds : Nat
  nanos : Nat
  seconds_lt : seconds < Nat.pow 2 64
  nanos_lt : nanos < nanosPerSecond
  deriving DecidableEq, Repr

namespace Duration

/-- The empty length. -/
def zero : Duration :=
  ⟨0, 0, by decide, by decide⟩

instance : Inhabited Duration :=
  ⟨zero⟩

/-- A length from seconds and any number of nanoseconds, whole seconds of which are carried over.
Refused when the seconds then exceed what a length can hold. -/
def ofParts? (seconds nanos : Nat) : Option Duration :=
  if bounded : seconds + nanos / nanosPerSecond < Nat.pow 2 64 then
    some ⟨seconds + nanos / nanosPerSecond, nanos % nanosPerSecond, bounded,
      Nat.mod_lt _ (by decide)⟩
  else
    none

/-- Reading the parts of a length gives the length back. -/
theorem ofParts?_parts (duration : Duration) :
    ofParts? duration.seconds duration.nanos = some duration := by
  have quotient : duration.nanos / nanosPerSecond = 0 := Nat.div_eq_of_lt duration.nanos_lt
  have remainder : duration.nanos % nanosPerSecond = duration.nanos :=
    Nat.mod_eq_of_lt duration.nanos_lt
  simp only [ofParts?, quotient, remainder, Nat.add_zero, duration.seconds_lt, dite_true]

/-- A length of whole milliseconds.  Any 64-bit count fits, and a larger one is cut to the greatest
count that fits. -/
def ofMillis (millis : Nat) : Duration :=
  ⟨min (millis / 1000) (Nat.pow 2 64 - 1), millis % 1000 * 1000000,
    Nat.lt_of_le_of_lt (Nat.min_le_right _ _) (by decide), by simp only [nanosPerSecond]; omega⟩

/-- A length of whole seconds, cut to the greatest one that fits. -/
def ofSeconds (seconds : Nat) : Duration :=
  ⟨min seconds (Nat.pow 2 64 - 1), 0, Nat.lt_of_le_of_lt (Nat.min_le_right _ _) (by decide),
    by decide⟩

/-- The length in milliseconds, rounded down. -/
def millis (duration : Duration) : Nat :=
  duration.seconds * 1000 + duration.nanos / 1000000

/-- Remove trailing zeros from a run of digits. -/
def dropTrailingZeros (digits : List Char) : List Char :=
  (digits.reverse.dropWhile (· == '0')).reverse

/-- A count of units with a fraction of `width` digits, trailing zeros left out. -/
def withFraction (whole width fraction : Nat) (suffix : String) : String :=
  let digits := dropTrailingZeros (Digits.padded width fraction)
  String.ofList (Digits.ofNat whole ++ (if digits.isEmpty then [] else '.' :: digits)) ++ suffix

/-- The length in the largest unit of seconds, milli-, micro- and nanoseconds of which it holds at
least one, written exactly. -/
def describe (duration : Duration) : String :=
  if 0 < duration.seconds then withFraction duration.seconds 9 duration.nanos "s"
  else if 1000000 ≤ duration.nanos then
    withFraction (duration.nanos / 1000000) 6 (duration.nanos % 1000000) "ms"
  else if 1000 ≤ duration.nanos then
    withFraction (duration.nanos / 1000) 3 (duration.nanos % 1000) "µs"
  else withFraction duration.nanos 0 0 "ns"

end Duration
end QueryFederation
