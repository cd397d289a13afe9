import QueryFederation.Number.Decimal
import QueryFederation.Number.Shortest

/-!
# Numbers in JSON documents

A number of a document is kept as it is written: a sign, digits, perhaps a fraction, perhaps a power
of ten.  Whether it is an integer or a double is decided by what the reader asks for.

As an integer only a number without fraction and without power of ten is accepted, and minus zero is
none.  As a double every number within range is accepted.  A double is read with limited precision:
digits count as long as they fit into 64 bits, and one multiplication with, or division by, a power
of ten follows.  The writer prints the shortest decimal that denotes the double exactly; for doubles
of ordinary size and length the reader returns the double that was written.
-/

namespace QueryFederation

/-- A number as written.  An empty fraction stands for none, as the grammar has no other use for
it. -/
structure JsonNumber where
  negative : Bool
  whole : List Char
  fraction : List Char
  exponent : Option (Bool × List Char)
  deriving DecidableEq, Repr

namespace JsonNumber

/-- A natural number. -/
def ofNat (number : Nat) : JsonNumber :=
  ⟨false, Digits.ofNat number, [], none⟩

/-- An integer. -/
def ofInt (number : Int) : JsonNumber :=
  ⟨decide (number < 0), Digits.ofNat number.natAbs, [], none⟩

/-- The integer that a number denotes, if it is written as one. -/
def toInt? (number : JsonNumber) : Option Int :=
  if number.fraction.isEmpty ∧ number.exponent.isNone then
    let magnitude := Digits.toNat number.whole
    if number.negative then
      if magnitude = 0 then none else some (-(magnitude : Int))
    else some magnitude
  else none

/-- Append digits to a significand as long as it stays below `2 ^ 64`; the significand and the digits
that did not fit. -/
def gather : Nat -> List Char -> Nat × List Char
  | significand, [] => (significand, [])
  | significand, digit :: digits =>
      let next := significand * 10 + (digit.toNat - '0'.toNat)
      if next < Nat.pow 2 64 then gather next digits else (significand, digit :: digits)

/-- The double nearest to a power of ten. -/
def powerOfTen (power : Nat) : Float :=
  (Decimal.nearest 1 power).toFloat false

/-- A non-negative double times a power of ten; `none` when the product exceeds all doubles. -/
def scale (value : Float) (power : Int) : Option Float :=
  if 308 < power then
    if value == 0 then some value else none
  else if 0 ≤ power then
    let product := value * powerOfTen power.toNat
    if product.isInf then none else some product
  else if -308 ≤ power then some (value / powerOfTen (-power).toNat)
  else if value == 0 then some value
  else scale (value / powerOfTen 308) (power + 308)
termination_by (-power).toNat

/-- The power of ten that is written at the end. -/
def writtenPower (number : JsonNumber) : Int :=
  match number.exponent with
  | none => 0
  | some (negative, digits) =>
      let magnitude : Int := Digits.toNat digits
      if negative then -magnitude else magnitude

/-- The double that a number denotes; `none` when it exceeds all doubles. -/
def toFloat? (number : JsonNumber) : Option Float :=
  let (significand, omitted) := gather 0 number.whole
  let (significand, unused) := gather significand number.fraction
  let power : Int := (omitted.length : Int) - ((number.fraction.length - unused.length : Nat) : Int)
  (scale (UInt64.ofNat significand).toFloat (power + number.writtenPower)).map fun value =>
    if number.negative then -value else value

/-- A decimal in positional notation, when its point lies within or next to its digits, and otherwise
with a power of ten after the first digit. -/
def ofDecimal (negative : Bool) (decimal : Shortest.Decimal) : JsonNumber :=
  let digits := Digits.ofNat decimal.digits
  let pointAt : Int := digits.length + decimal.power
  if -5 < pointAt ∧ pointAt ≤ 16 then
    if digits.length ≤ pointAt then
      ⟨negative, digits ++ List.replicate (pointAt - digits.length).toNat '0', ['0'], none⟩
    else if 0 < pointAt then
      ⟨negative, digits.take pointAt.toNat, digits.drop pointAt.toNat, none⟩
    else ⟨negative, ['0'], List.replicate (-pointAt).toNat '0' ++ digits, none⟩
  else
    ⟨negative, digits.take 1, digits.drop 1,
      some (decide (pointAt - 1 < 0), Digits.ofNat (pointAt - 1).natAbs)⟩

/-- A double; `none` for infinities and for what is no number. -/
def ofFloat? (value : Float) : Option JsonNumber :=
  match Binary64.read value with
  | .finite negative mantissa exponent =>
      if mantissa = 0 then some ⟨negative, ['0'], ['0'], none⟩
      else some (ofDecimal negative (Shortest.ofMagnitude mantissa exponent))
  | _ => none

/-- The text of a number. -/
def write (number : JsonNumber) : List Char :=
  (if number.negative then ['-'] else []) ++ number.whole ++
    (if number.fraction.isEmpty then [] else '.' :: number.fraction) ++
    match number.exponent with
    | none => []
    | some (negative, digits) => 'e' :: (if negative then '-' else '+') :: digits

end JsonNumber
end QueryFederation
