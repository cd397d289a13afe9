import QueryFederation.Number.Rounding

/-!
# Binary64 numbers as exact quantities

A double is read here as what its bits denote: no number, a signed infinity, or a signed
magnitude `mantissa * 2 ^ exponent`.  In the other direction an exact positive quotient is
rounded to the nearest double, ties going to the even mantissa.

Everything between the two is arithmetic on natural numbers.  The rounding is therefore a
definition about which theorems can be stated, and it is used wherever a text or a product has to
become a double by one correct rounding.
-/

namespace QueryFederation
namespace Binary64

/-- What the bits of a double denote.  A zero is the magnitude with mantissa zero, so it keeps its
sign. -/
inductive Reading where
  | notANumber
  | infinite (negative : Bool)
  | finite (negative : Bool) (mantissa : Nat) (exponent : Int)
  deriving DecidableEq, Repr

/-- The quantity that a double denotes.  Subnormal numbers share the exponent of the least normal
ones and lack the hidden bit. -/
def read (number : Float) : Reading :=
  let bits : Nat := number.toBits.toNat
  let negative := bits / Nat.pow 2 63 % 2 == 1
  let biased : Nat := bits / Nat.pow 2 52 % Nat.pow 2 11
  let fraction : Nat := bits % Nat.pow 2 52
  if biased = 2047 then
    if fraction = 0 then .infinite negative else .notANumber
  else if biased = 0 then .finite negative fraction (-1074)
  else .finite negative (fraction + Nat.pow 2 52) ((biased : Int) - 1075)

/-- A magnitude after rounding: too large for any finite double, or `mantissa * 2 ^ exponent` with
a mantissa of at most 53 bits (or `2 ^ 53` itself, after a carry). -/
inductive Magnitude where
  | overflow
  | value (mantissa : Nat) (exponent : Int)
  deriving DecidableEq, Repr

/-- The greatest `power` with `2 ^ power ≤ num / den`.  The logarithms of the two parts leave only
two candidates, which one comparison tells apart. -/
def floorLog2 (num den : Nat) : Int :=
  let guess : Int := (num.log2 : Int) - (den.log2 : Int)
  let reached :=
    if 0 ≤ guess then decide (den * Nat.pow 2 guess.toNat ≤ num)
    else decide (den ≤ num * Nat.pow 2 (-guess).toNat)
  if reached then guess else guess - 1

/-- The exponent of the last mantissa bit that a double near `num / den` can hold. -/
def lastBit (num den : Nat) : Int :=
  max (floorLog2 num den - 52) (-1074)

/-- The double nearest to the exact quotient `num / den`. -/
def nearest (num den : Nat) : Magnitude :=
  let exponent := lastBit num den
  let mantissa :=
    if 0 ≤ exponent then Rounding.halfEven num (den * Nat.pow 2 exponent.toNat)
    else Rounding.halfEven (num * Nat.pow 2 (-exponent).toNat) den
  if 971 < exponent ∨ (exponent = 971 ∧ Nat.pow 2 53 ≤ mantissa) then .overflow
  else .value mantissa exponent

/-- The double nearest to a factor times an exact magnitude `mantissa * 2 ^ exponent`. -/
def nearestMultiple (factor mantissa : Nat) (exponent : Int) : Magnitude :=
  if 0 ≤ exponent then nearest (factor * mantissa * Nat.pow 2 exponent.toNat) 1
  else nearest (factor * mantissa) (Nat.pow 2 (-exponent).toNat)

/-- The double with a given sign and rounded magnitude.  The exponent field and the mantissa are
added, so a carry out of the mantissa lands in the exponent, and a subnormal mantissa in a zero
field. -/
def Magnitude.toFloat (negative : Bool) : Magnitude -> Float
  | .overflow =>
      Float.ofBits
        (UInt64.ofNat ((if negative then Nat.pow 2 63 else 0) + 2047 * Nat.pow 2 52))
  | .value mantissa exponent =>
      Float.ofBits (UInt64.ofNat
        ((if negative then Nat.pow 2 63 else 0) +
          ((exponent + 1074).toNat * Nat.pow 2 52 + mantissa)))

end Binary64
end QueryFederation
