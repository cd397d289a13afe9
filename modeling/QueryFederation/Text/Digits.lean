/-!
# Decimal digits as text

Every number that the library reads or writes is, at its edge, a run of ASCII decimal digits.
This module fixes the three things that the formats share: how a natural number is written, how
it is padded to a fixed width, and how a text is divided into its leading digits and the rest.

Only the ten ASCII digits count.  The formats concerned admit no other, and a full-width digit
or a digit of another script must end a number instead of extending it.
-/

namespace QueryFederation
namespace Digits

/-- The decimal digits of a number, most significant first, without leading zeros. -/
def ofNat (number : Nat) : List Char :=
  Nat.toDigits 10 number

/-- The number that a run of digits denotes; leading zeros are allowed and the empty run is zero. -/
def toNat (digits : List Char) : Nat :=
  Nat.ofDigitChars 10 digits 0

/-- Writing a number and reading the digits back changes nothing. -/
theorem toNat_ofNat (number : Nat) : toNat (ofNat number) = number :=
  Nat.ofDigitChars_toDigits (by decide) (by decide)

/-- Digits with zeros in front up to a width.  A number too long for the width is kept whole. -/
def padded (width number : Nat) : List Char :=
  let digits := ofNat number
  List.replicate (width - digits.length) '0' ++ digits

/-- The leading digits of a text and what follows them. -/
def split (text : List Char) : List Char × List Char :=
  (text.takeWhile Char.isDigit, text.dropWhile Char.isDigit)

/-- Dividing a text loses nothing of it. -/
theorem split_append (text : List Char) : (split text).1 ++ (split text).2 = text :=
  List.takeWhile_append_dropWhile

/-- What is split off in front consists of digits only. -/
theorem isDigit_of_mem_split {text : List Char} {character : Char}
    (member : character ∈ (split text).1) : character.isDigit = true := by
  induction text with
  | nil => simp [split] at member
  | cons first rest inductionHypothesis =>
      by_cases digit : first.isDigit = true
      · simp only [split, List.takeWhile_cons, digit, if_true, List.mem_cons] at member
        rcases member with rfl | later
        · exact digit
        · exact inductionHypothesis later
      · simp [split, digit] at member

/-- Split off exactly `count` digits; refused when fewer stand in front. -/
def take? (count : Nat) (text : List Char) : Option (Nat × List Char) :=
  let front := text.take count
  if front.length = count ∧ front.all Char.isDigit = true then
    some (toNat front, text.drop count)
  else
    none

/-- The value of a hexadecimal digit, in either case. -/
def hexadecimal? (character : Char) : Option Nat :=
  if character.isDigit then some (character.toNat - '0'.toNat)
  else if 'a' ≤ character ∧ character ≤ 'f' then some (character.toNat - 'a'.toNat + 10)
  else if 'A' ≤ character ∧ character ≤ 'F' then some (character.toNat - 'A'.toNat + 10)
  else none

/-- The number that hexadecimal digits denote; refused when another character occurs. -/
def hexadecimalNumber? (digits : List Char) : Option Nat :=
  digits.foldlM (fun value digit => (hexadecimal? digit).map (value * 16 + ·)) 0

end Digits
end QueryFederation
