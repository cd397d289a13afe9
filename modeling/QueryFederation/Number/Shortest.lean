import QueryFederation.Number.Binary64
import QueryFederation.Text.Digits

/-!
# The shortest decimal that reads back

A double stands for an interval of real numbers, those that round to it.  The decimal chosen here
has the fewest digits of all that lie in the interval, and among those it is the nearest to the
double itself.

For each digit count the only candidates are the two neighbours of the value on that decimal
grid: if any point of a grid lies in the interval, one of those two does.  Seventeen digits always
suffice, so the search is a bounded recursion, and all comparisons are between natural numbers.
-/

namespace QueryFederation
namespace Shortest

/-- A decimal `digits * 10 ^ power`. -/
structure Decimal where
  digits : Nat
  power : Int
  deriving DecidableEq, Repr

/-- A double and the ends of its interval over one common denominator. -/
structure Interval where
  value : Nat
  lower : Nat
  upper : Nat
  den : Nat
  /-- The ends themselves round to the double exactly when its mantissa is even. -/
  closed : Bool

/-- The interval of the double `mantissa * 2 ^ exponent`.  Below a power of two the doubles are
twice as dense, unless they are subnormal, so the lower half-gap is then only half as wide. -/
def Interval.of (mantissa : Nat) (exponent : Int) : Interval :=
  let narrow := decide (mantissa = Nat.pow 2 52 ∧ -1074 < exponent)
  let below := if narrow then 1 else 2
  let quarter := exponent - 2
  let scale := if 0 ≤ quarter then Nat.pow 2 quarter.toNat else 1
  let den := if 0 ≤ quarter then 1 else Nat.pow 2 (-quarter).toNat
  { value := 4 * mantissa * scale
    lower := (4 * mantissa - below) * scale
    upper := (4 * mantissa + 2) * scale
    den := den
    closed := mantissa % 2 == 0 }

/-- Whether the decimal `count * 10 ^ power` lies in the interval. -/
def Interval.holds (interval : Interval) (count : Nat) (power : Int) : Bool :=
  let point :=
    if 0 ≤ power then count * Nat.pow 10 power.toNat * interval.den else count * interval.den
  let scale := if 0 ≤ power then 1 else Nat.pow 10 (-power).toNat
  if interval.closed then
    decide (interval.lower * scale ≤ point ∧ point ≤ interval.upper * scale)
  else
    decide (interval.lower * scale < point ∧ point < interval.upper * scale)

/-- The greatest multiple of `10 ^ power` that is not above the value, and whether the value lies
nearer to the next one.  A tie counts as nearer when the multiple is odd. -/
def Interval.floor (interval : Interval) (power : Int) : Nat × Bool :=
  let num := if 0 ≤ power then interval.value else interval.value * Nat.pow 10 (-power).toNat
  let den := if 0 ≤ power then interval.den * Nat.pow 10 power.toNat else interval.den
  (num / den, Rounding.halfEven num den != num / den)

/-- The decimal of the interval on one grid, if there is one. -/
def Interval.onGrid? (interval : Interval) (power : Int) : Option Decimal :=
  let (below, nearerAbove) := interval.floor power
  let lowerFits := interval.holds below power
  let upperFits := interval.holds (below + 1) power
  if upperFits && (nearerAbove || !lowerFits) then some ⟨below + 1, power⟩
  else if lowerFits then some ⟨below, power⟩
  else none

/-- Search grids from coarse to fine. -/
def Interval.search (interval : Interval) : Nat -> Int -> Decimal
  | 0, power => ⟨(interval.floor power).1, power⟩
  | steps + 1, power =>
      match interval.onGrid? power with
      | some found => found
      | none => interval.search steps (power - 1)

/-- The greatest `power` with `10 ^ power ≤ value / den`, found from the binary logarithm.  The
quotient 30103 / 100000 is so near to the decimal logarithm of two that the guess is off by at most
one over the whole range of doubles. -/
def floorLog10 (value den : Nat) : Int :=
  let guess := Binary64.floorLog2 value den * 30103 / 100000
  let reached (power : Int) : Bool :=
    if 0 ≤ power then decide (Nat.pow 10 power.toNat * den ≤ value)
    else decide (den ≤ value * Nat.pow 10 (-power).toNat)
  if reached (guess + 1) then guess + 1
  else if reached guess then guess
  else guess - 1

/-- Remove the zeros at the end of the digits. -/
def trim : Nat -> Decimal -> Decimal
  | 0, decimal => decimal
  | steps + 1, decimal =>
      if decimal.digits % 10 = 0 ∧ decimal.digits ≠ 0 then
        trim steps ⟨decimal.digits / 10, decimal.power + 1⟩
      else decimal

/-- The shortest decimal that reads back as the positive double `mantissa * 2 ^ exponent`. -/
def ofMagnitude (mantissa : Nat) (exponent : Int) : Decimal :=
  let interval := Interval.of mantissa exponent
  trim 20 (interval.search 17 (floorLog10 interval.value interval.den))

end Shortest
end QueryFederation
