import QueryFederation.Time.Calendar
import QueryFederation.Toml.Basic

/-!
# Unquoted values

A value without quotes is read as a whole: a truth value, an integer in one of four bases, a float, or a
date, a time or both.  Single underscores may stand between digits, and a decimal number has no leading
zeros.

Integers have at most 128 bits.  A float that exceeds all doubles is refused.
-/

namespace QueryFederation
namespace Toml

/-- Remove the underscores from digits.  Each must stand between two digits. -/
def joinDigits? (isDigit : Char -> Bool) : List Char -> Option (List Char)
  | [] => none
  | [digit] => if isDigit digit then some [digit] else none
  | digit :: '_' :: rest =>
      if isDigit digit then (joinDigits? isDigit rest).map (digit :: ·) else none
  | digit :: rest =>
      if isDigit digit then (joinDigits? isDigit rest).map (digit :: ·) else none

/-- The value of a digit in a base of at most sixteen. -/
def isDigitOf (base : Nat) (character : Char) : Bool :=
  match Digits.hexadecimal? character with
  | some value => decide (value < base)
  | none => false

/-- The number that digits of a base denote. -/
def inBase (base : Nat) (digits : List Char) : Nat :=
  digits.foldl (fun value digit => value * base + (Digits.hexadecimal? digit).getD 0) 0

/-- Read a number after the mark of its base. -/
def natural? (base : Nat) (text : List Char) : Option Int :=
  (joinDigits? (isDigitOf base) text).map fun digits => inBase base digits

/-- Read decimal digits without leading zeros. -/
def decimalDigits? (text : List Char) : Option (List Char) :=
  match joinDigits? Char.isDigit text with
  | some ['0'] => some ['0']
  | some ('0' :: _) => none
  | other => other

/-- Read an integer of any size. -/
def integer? (text : List Char) : Option Int :=
  match text with
  | '0' :: 'x' :: rest => natural? 16 rest
  | '0' :: 'o' :: rest => natural? 8 rest
  | '0' :: 'b' :: rest => natural? 2 rest
  | _ =>
      let (negative, unsigned) := Decimal.sign text
      (decimalDigits? unsigned).map fun digits =>
        if negative then -(Digits.toNat digits : Int) else Digits.toNat digits

/-- Whether an integer has at most 128 bits. -/
def isWithinBits (value : Int) : Bool :=
  decide (-(Nat.pow 2 127) ≤ value ∧ value < Nat.pow 2 128)

/-- Divide a text at the first character of a kind, which is dropped. -/
def cut? (isMark : Char -> Bool) (text : List Char) : Option (List Char × List Char) :=
  match text.dropWhile (fun character => !isMark character) with
  | [] => none
  | _ :: rest => some (text.takeWhile (fun character => !isMark character), rest)

/-- Read the power of ten of a float. -/
def floatPower? (text : List Char) : Option Int :=
  let (negative, unsigned) := Decimal.sign text
  (joinDigits? Char.isDigit unsigned).map fun digits =>
    if negative then -(Digits.toNat digits : Int) else Digits.toNat digits

/-- Read an unsigned float: digits, and a fraction or a power of ten or both. -/
def unsignedFloat? (negative : Bool) (text : List Char) : Option Decimal.Literal := do
  let (mantissa, power) <-
    match cut? (fun character => character == 'e' || character == 'E') text with
    | some (mantissa, power) => (floatPower? power).map fun power => (mantissa, some power)
    | none => some (text, none)
  match cut? (· == '.') mantissa with
  | some (whole, fraction) => do
      let whole <- decimalDigits? whole
      let fraction <- joinDigits? Char.isDigit fraction
      some (.finite negative (Digits.toNat (whole ++ fraction))
        (power.getD 0 - fraction.length))
  | none => do
      let power <- power
      let whole <- decimalDigits? mantissa
      some (.finite negative (Digits.toNat whole) power)

/-- Whether a literal stands for a double, infinities by name included. -/
def isRepresentable : Decimal.Literal -> Bool
  | .finite _ significand power =>
      match Decimal.nearest significand power with
      | .overflow => false
      | .value _ _ => true
  | _ => true

/-- Read a float. -/
def float? (text : List Char) : Option Decimal.Literal :=
  let (negative, unsigned) := Decimal.sign text
  if unsigned = ['i', 'n', 'f'] then some (.infinite negative)
  else if unsigned = ['n', 'a', 'n'] then some .notANumber
  else (unsignedFloat? negative unsigned).filter isRepresentable

/-- Read two digits after a dash. -/
def afterDash? : List Char -> Option (Nat × List Char)
  | '-' :: rest => Digits.take? 2 rest
  | _ => none

/-- Read a date. -/
def date? (text : List Char) : Option (List Char) := do
  let (year, text) <- Digits.take? 4 text
  let (month, text) <- afterDash? text
  let (day, text) <- afterDash? text
  if Calendar.isDate ⟨year, month, day⟩ then some text else none

/-- Read two digits after a colon, the value below a bound. -/
def afterColon? (bound : Nat) : List Char -> Option (List Char)
  | ':' :: rest =>
      match Digits.take? 2 rest with
      | some (value, rest) => if value < bound then some rest else none
      | none => none
  | _ => none

/-- Read the fraction of a second that may follow. -/
def secondFraction? : List Char -> Option (List Char)
  | '.' :: rest =>
      let (digits, rest) := Digits.split rest
      if digits.isEmpty then none else some rest
  | text => some text

/-- Read a time of day.  The seconds may be left out. -/
def timeOfDay? (text : List Char) : Option (List Char) := do
  let (hour, text) <- Digits.take? 2 text
  if 24 ≤ hour then none
  else
    let text <- afterColon? 60 text
    match text with
    | ':' :: _ => (afterColon? 61 text).bind secondFraction?
    | _ => some text

/-- Read a distance from UTC that may follow. -/
def offset? : List Char -> Option (List Char)
  | [] => some []
  | first :: rest =>
      if first = 'Z' ∨ first = 'z' then some rest
      else if first = '+' ∨ first = '-' then
        match Digits.take? 2 rest with
        | some (hours, rest) => if hours < 24 then afterColon? 60 rest else none
        | none => none
      else none

/-- Whether a text is a date, a time of day, or both with or without a distance from UTC. -/
def isMoment (text : List Char) : Bool :=
  match date? text with
  | some [] => true
  | some (separator :: rest) =>
      (separator == 'T' || separator == 't' || separator == ' ') &&
        ((timeOfDay? rest).bind offset? == some [])
  | none => timeOfDay? text == some []

/-- Read an unquoted value. -/
def scalar? (text : List Char) : Option Toml :=
  if text = "true".toList then some (.boolean true)
  else if text = "false".toList then some (.boolean false)
  else
    match integer? text with
    | some value => if isWithinBits value then some (.integer value) else none
    | none =>
        match float? text with
        | some literal => some (.float literal)
        | none => if isMoment text then some (.moment (String.ofList text)) else none

end Toml
end QueryFederation
