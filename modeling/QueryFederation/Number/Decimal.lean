import QueryFederation.Number.Binary64
import QueryFederation.Text.Digits

/-!
# Decimal notation of floating-point numbers

The liberal notation in which a person types a number: an optional sign, digits with an optional
point on either side of which digits may be missing (but not on both), and an optional power of
ten; or one of the words for infinity and for "not a number", in any case.

A notation denotes an exact decimal quantity.  It becomes a double by a single correct rounding,
so that the digits beyond the seventeenth still decide ties.
-/

namespace QueryFederation
namespace Decimal

/-- What a notation denotes before any rounding: a word, or `significand * 10 ^ power` with a
sign. -/
inductive Literal where
  | notANumber
  | infinite (negative : Bool)
  | finite (negative : Bool) (significand : Nat) (power : Int)
  deriving DecidableEq, Repr

/-- The double nearest to `significand * 10 ^ power`.  A power so large or so small that no double
but an extreme one can be meant is answered at once, without building the power of ten. -/
def nearest (significand : Nat) (power : Int) : Binary64.Magnitude :=
  let length : Int := (Digits.ofNat significand).length
  if significand = 0 then .value 0 (-1074)
  else if 310 < length + power then .overflow
  else if length + power < -330 then .value 0 (-1074)
  else if 0 ≤ power then Binary64.nearest (significand * Nat.pow 10 power.toNat) 1
  else Binary64.nearest significand (Nat.pow 10 (-power).toNat)

/-- Read an optional sign: whether it is negative, and the rest. -/
def sign : List Char -> Bool × List Char
  | '-' :: rest => (true, rest)
  | '+' :: rest => (false, rest)
  | text => (false, text)

/-- Read the power of ten that may end a notation; it has a sign and at least one digit. -/
def power? : List Char -> Option Int
  | [] => some 0
  | marker :: rest =>
      if marker = 'e' ∨ marker = 'E' then
        let (negative, digits) := sign rest
        if digits.isEmpty ∨ !digits.all Char.isDigit then none
        else
          let value : Int := Digits.toNat digits
          some (if negative then -value else value)
      else none

/-- Read an unsigned notation in digits. -/
def digits? (negative : Bool) (text : List Char) : Option Literal :=
  let (whole, rest) := Digits.split text
  let (fraction, rest) :=
    match rest with
    | '.' :: afterPoint => Digits.split afterPoint
    | _ => ([], rest)
  if whole.isEmpty ∧ fraction.isEmpty then none
  else
    (power? rest).map fun power =>
      .finite negative (Digits.toNat (whole ++ fraction)) (power - fraction.length)

/-- Read a notation.  The words are compared without regard to the case of ASCII letters. -/
def read? (text : String) : Option Literal :=
  let (negative, unsigned) := sign text.toList
  let word := String.ofList (unsigned.map Char.toLower)
  if word = "nan" then some .notANumber
  else if word = "inf" ∨ word = "infinity" then some (.infinite negative)
  else digits? negative unsigned

/-- The double that a notation denotes. -/
def Literal.toFloat : Literal -> Float
  | .notANumber => Float.ofBits 0x7ff8000000000000
  | .infinite negative => Binary64.Magnitude.overflow.toFloat negative
  | .finite negative significand power => (nearest significand power).toFloat negative

end Decimal
end QueryFederation
