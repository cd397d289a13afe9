import QueryFederation.Text.Blank
import QueryFederation.Text.Digits
import QueryFederation.Time.Instant

/-!
# Written points in time

Points in time are written in the profile of ISO 8601 that RFC 3339 fixes: date, time of day and
distance from UTC.  There is one writer and there are two readers.

The writer uses UTC, the letters `T` and `Z`, and the fewest of 0, 3, 6 or 9 fraction digits that
are exact.  A year outside 0 to 9999 carries a sign.

The strict reader is for what a person types on a command line: every part has its fixed width.
The lenient reader is for stored documents.  It also takes white space between the parts, parts
without leading zeros, years with a sign and any number of digits, and `UTC` for `Z`; everything
that the writer produces is among this.
-/

namespace QueryFederation
namespace Timestamp

/-- The text of a year. -/
def writeYear (year : Int) : List Char :=
  if 0 ≤ year ∧ year ≤ 9999 then Digits.padded 4 year.toNat
  else (if year < 0 then '-' else '+') :: Digits.padded 4 year.natAbs

/-- The fraction of a second, as short as is exact among the four widths. -/
def writeFraction (nanos : Nat) : List Char :=
  if nanos = 0 then []
  else if nanos % 1000000 = 0 then '.' :: Digits.padded 3 (nanos / 1000000)
  else if nanos % 1000 = 0 then '.' :: Digits.padded 6 (nanos / 1000)
  else '.' :: Digits.padded 9 nanos

/-- The text of a point in time. -/
def write (instant : Instant) : List Char :=
  let civil := instant.civil
  writeYear civil.date.year ++ '-' :: Digits.padded 2 civil.date.month ++
    '-' :: Digits.padded 2 civil.date.day ++
    'T' :: Digits.padded 2 civil.hour ++ ':' :: Digits.padded 2 civil.minute ++
    ':' :: Digits.padded 2 civil.second ++ writeFraction civil.nanos ++ ['Z']

/-- Take one given character from the front. -/
def expect (character : Char) : List Char -> Option (List Char)
  | [] => none
  | first :: rest => if first = character then some rest else none

/-- Take one of three characters that may stand between date and time of day. -/
def separator? : List Char -> Option (List Char)
  | [] => none
  | first :: rest => if first = 'T' ∨ first = 't' ∨ first = ' ' then some rest else none

/-- Read the fraction of a second that may follow: nanoseconds and the rest.  Digits after the
ninth are dropped, but a point without any digit is refused. -/
def fraction? : List Char -> Option (Nat × List Char)
  | '.' :: afterPoint =>
      let (digits, rest) := Digits.split afterPoint
      if digits.isEmpty then none
      else
        let kept := digits.take 9
        some (Digits.toNat kept * Nat.pow 10 (9 - kept.length), rest)
  | text => some (0, text)

/-- Read the sign of a distance from UTC; the typographic minus counts as a minus. -/
def offsetSign? : List Char -> Option (Int × List Char)
  | [] => none
  | first :: rest =>
      if first = '+' then some (1, rest)
      else if first = '-' ∨ first = '\u2212' then some (-1, rest)
      else none

/-- Read a distance from UTC in hours and minutes.  `between` takes what separates the two. -/
def numericOffset? (between : List Char -> Option (List Char)) (text : List Char) :
    Option (Int × List Char) := do
  let (sign, text) <- offsetSign? text
  let (hours, text) <- Digits.take? 2 text
  let text <- between text
  let (minutes, text) <- Digits.take? 2 text
  if minutes < 60 then
    some (sign * ((hours : Int) * 3600 + minutes * 60), text)
  else none

/-- Read the distance from UTC in its strict form. -/
def strictOffset? : List Char -> Option (Int × List Char)
  | 'Z' :: rest => some (0, rest)
  | 'z' :: rest => some (0, rest)
  | text => numericOffset? (expect ':') text

/-- Read a date and time in the strict form. -/
def strictCivil? (text : List Char) : Option CivilTime := do
  let (year, text) <- Digits.take? 4 text
  let text <- expect '-' text
  let (month, text) <- Digits.take? 2 text
  let text <- expect '-' text
  let (day, text) <- Digits.take? 2 text
  let text <- separator? text
  let (hour, text) <- Digits.take? 2 text
  let text <- expect ':' text
  let (minute, text) <- Digits.take? 2 text
  let text <- expect ':' text
  let (second, text) <- Digits.take? 2 text
  let (nanos, text) <- fraction? text
  let (offset, text) <- strictOffset? text
  if text.isEmpty then some ⟨⟨year, month, day⟩, hour, minute, second, nanos, offset⟩ else none

/-- Read a point in time in the strict form. -/
def strict? (text : List Char) : Option Instant :=
  (strictCivil? text).bind CivilTime.instant?

/-- Read a number of one to `width` digits after white space. -/
def looseNumber? (width : Nat) (text : List Char) : Option (Nat × List Char) :=
  let text := Blank.dropLeading text
  let digits := (text.take width).takeWhile Char.isDigit
  if digits.isEmpty then none else some (Digits.toNat digits, text.drop digits.length)

/-- Read a year after white space: up to four digits, or a sign and any number of digits. -/
def looseYear? (text : List Char) : Option (Int × List Char) :=
  match Blank.dropLeading text with
  | '-' :: rest =>
      let (digits, rest) := Digits.split rest
      if digits.isEmpty then none else some (-(Digits.toNat digits : Int), rest)
  | '+' :: rest =>
      let (digits, rest) := Digits.split rest
      if digits.isEmpty then none else some ((Digits.toNat digits : Int), rest)
  | text => (looseNumber? 4 text).map fun (year, rest) => ((year : Int), rest)

/-- Take one given character after white space. -/
def looseExpect (character : Char) (text : List Char) : Option (List Char) :=
  expect character (Blank.dropLeading text)

/-- Whether a character may separate hours and minutes of a loosely written distance from UTC. -/
def isLooseColon (character : Char) : Bool :=
  character == ':' || Blank.isBlank character

/-- Read the distance from UTC in its lenient form. -/
def lenientOffset? (text : List Char) : Option (Int × List Char) :=
  let text := Blank.dropLeading text
  if (text.take 3).map Char.toLower = ['u', 't', 'c'] then some (0, text.drop 3)
  else
    match text with
    | 'Z' :: rest => some (0, rest)
    | 'z' :: rest => some (0, rest)
    | text => numericOffset? (fun rest => some (rest.dropWhile isLooseColon)) text

/-- Read a date and time in the lenient form. -/
def lenientCivil? (text : List Char) : Option CivilTime := do
  let (year, text) <- looseYear? text
  let text <- looseExpect '-' text
  let (month, text) <- looseNumber? 2 text
  let text <- looseExpect '-' text
  let (day, text) <- looseNumber? 2 text
  let text <- separator? text
  let (hour, text) <- looseNumber? 2 text
  let text <- looseExpect ':' text
  let (minute, text) <- looseNumber? 2 text
  let text <- looseExpect ':' text
  let (second, text) <- looseNumber? 2 text
  let (nanos, text) <- fraction? text
  let (offset, text) <- lenientOffset? text
  if (Blank.dropLeading text).isEmpty then
    some ⟨⟨year, month, day⟩, hour, minute, second, nanos, offset⟩
  else none

/-- Read a point in time in the lenient form. -/
def lenient? (text : List Char) : Option Instant :=
  (lenientCivil? text).bind CivilTime.instant?

end Timestamp
end QueryFederation
