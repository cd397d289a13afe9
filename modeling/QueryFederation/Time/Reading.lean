import QueryFederation.Number.Decimal
import QueryFederation.Time.Timestamp

/-!
# Points in time on the command line

A point in time may be typed as seconds since the beginning of 1970, in decimal notation, or as a
date and time.  Any text that is a number is taken as seconds; only another text is read as a date.

Seconds pass through a double, and so does their product with a thousand.  Each of the two steps is
one correct rounding.  The product is then rounded to whole milliseconds, a half going away from
zero, and held within the range of 64-bit integers.  A text for "not a number" counts as zero.
-/

namespace QueryFederation

/-- Why a typed text is no point in time. -/
inductive TimeFault where
  /-- A number of seconds that no year of the calendar contains. -/
  | outOfRange (text : String)
  /-- Neither a number nor a date and time. -/
  | unreadable (text : String)
  deriving DecidableEq, Repr

namespace TimeFault

/-- The wording of a fault. -/
def message : TimeFault -> String
  | outOfRange text => "timestamp out of range: " ++ text
  | unreadable text => "invalid timestamp '" ++ text ++ "': not a date and time"

end TimeFault

namespace Instant

/-- The least and the greatest 64-bit count of milliseconds. -/
def clampMillis (millis : Int) : Int :=
  max (-(Nat.pow 2 63)) (min (Nat.pow 2 63 - 1) millis)

/-- The nearest whole number to a magnitude, halves going up. -/
def wholePart (mantissa : Nat) (exponent : Int) : Nat :=
  if 0 ≤ exponent then mantissa * Nat.pow 2 exponent.toNat
  else Rounding.halfUp mantissa (Nat.pow 2 (-exponent).toNat)

/-- A thousand times a rounded magnitude, rounded to a double and then to a whole number; `none`
when the product exceeds all doubles. -/
def magnitudeMillis? : Binary64.Magnitude -> Option Nat
  | .overflow => none
  | .value mantissa exponent =>
      match Binary64.nearestMultiple 1000 mantissa exponent with
      | .overflow => none
      | .value product power => some (wholePart product power)

/-- The milliseconds that a number of seconds stands for. -/
def literalMillis : Decimal.Literal -> Int
  | .notANumber => 0
  | .infinite negative => clampMillis (if negative then -(Nat.pow 2 64) else Nat.pow 2 64)
  | .finite negative significand power =>
      let magnitude : Int :=
        match magnitudeMillis? (Decimal.nearest significand power) with
        | none => Nat.pow 2 64
        | some millis => millis
      clampMillis (if negative then -magnitude else magnitude)

/-- Read a typed point in time. -/
def read (text : String) : Except TimeFault Instant :=
  match Decimal.read? text with
  | some literal =>
      match ofMillis? (literalMillis literal) with
      | some instant => .ok instant
      | none => .error (.outOfRange text)
  | none =>
      match Timestamp.strict? text.toList with
      | some instant => .ok instant
      | none => .error (.unreadable text)

end Instant
end QueryFederation
