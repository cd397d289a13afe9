import QueryFederation.Json.Basic

/-!
# Reading JSON documents

The grammar is the strict one: no comments, no trailing commas, no byte order mark, no control
characters inside strings, no leading zeros, and nothing but white space after the document.

Reading goes over the characters of the text.  The recursion is bounded by twice the length of the
text, since of two successive steps at least one takes a character.
-/

namespace QueryFederation
namespace Json

/-- White space between the parts of a document. -/
def isSpace (character : Char) : Bool :=
  character == ' ' || character == '\n' || character == '\t' || character == '\r'

/-- The text without the white space in front. -/
def dropSpace (text : List Char) : List Char :=
  text.dropWhile isSpace

/-- A part of a string as written: a character, or an escape by a 16-bit number. -/
inductive StringPiece where
  | character (character : Char)
  | unit (code : Nat)

/-- The character that a short escape stands for. -/
def shortEscape? : Char -> Option Char
  | '"' => some '"'
  | '\\' => some '\\'
  | '/' => some '/'
  | 'b' => some '\x08'
  | 'f' => some '\x0c'
  | 'n' => some '\n'
  | 'r' => some '\r'
  | 't' => some '\t'
  | _ => none

/-- Divide the rest of a string, after its opening quote, into pieces; the text after the closing
quote is left. -/
def stringPieces? : List Char -> Option (List StringPiece × List Char)
  | [] => none
  | '"' :: rest => some ([], rest)
  | '\\' :: 'u' :: first :: second :: third :: fourth :: rest => do
      let code <- Digits.hexadecimalNumber? [first, second, third, fourth]
      let (pieces, rest) <- stringPieces? rest
      some (.unit code :: pieces, rest)
  | '\\' :: escape :: rest => do
      let character <- shortEscape? escape
      let (pieces, rest) <- stringPieces? rest
      some (.character character :: pieces, rest)
  | character :: rest =>
      if character.toNat < 32 ∨ character = '\\' then none
      else do
        let (pieces, rest) <- stringPieces? rest
        some (.character character :: pieces, rest)

/-- Whether a 16-bit number is the first half of a surrogate pair. -/
def isHighSurrogate (code : Nat) : Bool :=
  decide (0xD800 ≤ code ∧ code < 0xDC00)

/-- Whether a 16-bit number is the second half of a surrogate pair. -/
def isLowSurrogate (code : Nat) : Bool :=
  decide (0xDC00 ≤ code ∧ code < 0xE000)

/-- The characters that pieces denote; `none` when half of a surrogate pair stands alone. -/
def assemble? : List StringPiece -> Option (List Char)
  | [] => some []
  | .character character :: rest => (assemble? rest).map (character :: ·)
  | .unit high :: .unit low :: rest =>
      if isHighSurrogate high then
        if isLowSurrogate low then
          (assemble? rest).map
            (Char.ofNat (0x10000 + (high - 0xD800) * 0x400 + (low - 0xDC00)) :: ·)
        else none
      else if isLowSurrogate high then none
      else (assemble? (.unit low :: rest)).map (Char.ofNat high :: ·)
  | .unit code :: rest =>
      if isHighSurrogate code ∨ isLowSurrogate code then none
      else (assemble? rest).map (Char.ofNat code :: ·)

/-- Read the rest of a string after its opening quote: its text, if it has one. -/
def stringText? (text : List Char) : Option (Option String × List Char) :=
  (stringPieces? text).map fun (pieces, rest) => ((assemble? pieces).map String.ofList, rest)

/-- Read the digits before the point: a zero alone, or digits that do not begin with one. -/
def wholeDigits? : List Char -> Option (List Char × List Char)
  | '0' :: rest => some (['0'], rest)
  | text =>
      let (digits, rest) := Digits.split text
      if digits.isEmpty then none else some (digits, rest)

/-- Read a fraction that may follow; no digits stand for no fraction. -/
def fractionDigits? : List Char -> Option (List Char × List Char)
  | '.' :: rest =>
      let (digits, rest) := Digits.split rest
      if digits.isEmpty then none else some (digits, rest)
  | text => some ([], text)

/-- Read a power of ten that may follow. -/
def exponentDigits? : List Char -> Option (Option (Bool × List Char) × List Char)
  | [] => some (none, [])
  | marker :: rest =>
      if marker = 'e' ∨ marker = 'E' then
        let (negative, unsigned) := Decimal.sign rest
        let (digits, rest) := Digits.split unsigned
        if digits.isEmpty then none else some (some (negative, digits), rest)
      else some (none, marker :: rest)

/-- Read a number. -/
def numberText? (text : List Char) : Option (JsonNumber × List Char) := do
  let (negative, text) :=
    match text with
    | '-' :: rest => (true, rest)
    | text => (false, text)
  let (whole, text) <- wholeDigits? text
  let (fraction, text) <- fractionDigits? text
  let (exponent, text) <- exponentDigits? text
  some (⟨negative, whole, fraction, exponent⟩, text)

/-- An object from its members.  A name that denotes no text leaves nothing but the extent. -/
def ofMembers (members : List (Option String × Json)) : Json :=
  match members.mapM (fun member => member.1.map fun name => (name, member.2)) with
  | some named => .object named
  | none => .skippable

mutual

/-- Read a value, with a bound on the depth of the recursion. -/
def value? : Nat -> List Char -> Option (Json × List Char)
  | 0, _ => none
  | bound + 1, text =>
      match dropSpace text with
      | 'n' :: 'u' :: 'l' :: 'l' :: rest => some (.null, rest)
      | 't' :: 'r' :: 'u' :: 'e' :: rest => some (.boolean true, rest)
      | 'f' :: 'a' :: 'l' :: 's' :: 'e' :: rest => some (.boolean false, rest)
      | '"' :: rest =>
          (stringText? rest).map fun (text?, rest) =>
            (match text? with
             | some text => .string text
             | none => .skippable, rest)
      | '[' :: rest =>
          match dropSpace rest with
          | ']' :: rest => some (.array [], rest)
          | rest => (items? bound rest).map fun (items, rest) => (.array items, rest)
      | '\x7b' :: rest =>
          match dropSpace rest with
          | '\x7d' :: rest => some (.object [], rest)
          | rest => (members? bound rest).map fun (members, rest) => (ofMembers members, rest)
      | text => (numberText? text).map fun (written, rest) => (.number written, rest)

/-- Read the items of an array up to its closing bracket. -/
def items? : Nat -> List Char -> Option (List Json × List Char)
  | 0, _ => none
  | bound + 1, text => do
      let (item, text) <- value? bound text
      match dropSpace text with
      | ']' :: rest => some ([item], rest)
      | ',' :: rest => do
          let (items, rest) <- items? bound rest
          some (item :: items, rest)
      | _ => none

/-- Read the members of an object up to its closing brace. -/
def members? : Nat -> List Char -> Option (List (Option String × Json) × List Char)
  | 0, _ => none
  | bound + 1, text =>
      match dropSpace text with
      | '"' :: rest => do
          let (name, rest) <- stringText? rest
          match dropSpace rest with
          | ':' :: rest => do
              let (value, rest) <- value? bound rest
              match dropSpace rest with
              | '\x7d' :: rest => some ([(name, value)], rest)
              | ',' :: rest => do
                  let (members, rest) <- members? bound rest
                  some ((name, value) :: members, rest)
              | _ => none
          | _ => none
      | _ => none

end

/-- Read a document. -/
def parse? (text : String) : Option Json :=
  let characters := text.toList
  match value? (2 * characters.length + 2) characters with
  | some (document, rest) => if (dropSpace rest).isEmpty then some document else none
  | none => none

end Json
end QueryFederation
