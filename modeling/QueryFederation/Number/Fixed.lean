import QueryFederation.Number.Binary64
import QueryFederation.Text.Digits

/-!
# Doubles with a fixed number of decimal places

Reports print statistics with two or three places.  The exact value of the double is rounded once,
a tie going to the even neighbour.  The sign of the double is kept even when every printed digit is
a zero, because a negative quantity that is too small to show is still not a positive one.
-/

namespace QueryFederation
namespace Fixed

/-- A natural number of units of the last place, with the point set before the last `places`
digits. -/
def point (places units : Nat) : List Char :=
  if places = 0 then Digits.ofNat units
  else
    Digits.ofNat (units / Nat.pow 10 places) ++
      '.' :: Digits.padded places (units % Nat.pow 10 places)

/-- The magnitude `mantissa * 2 ^ exponent` in units of the last place. -/
def units (places mantissa : Nat) (exponent : Int) : Nat :=
  if 0 ≤ exponent then mantissa * Nat.pow 2 exponent.toNat * Nat.pow 10 places
  else Rounding.halfEven (mantissa * Nat.pow 10 places) (Nat.pow 2 (-exponent).toNat)

/-- The text of a double with a fixed number of places. -/
def render (places : Nat) (number : Float) : String :=
  match Binary64.read number with
  | .notANumber => "NaN"
  | .infinite negative => if negative then "-inf" else "inf"
  | .finite negative mantissa exponent =>
      let digits := point places (units places mantissa exponent)
      String.ofList (if negative then '-' :: digits else digits)

end Fixed
end QueryFederation
