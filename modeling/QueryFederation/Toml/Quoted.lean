import QueryFederation.Text.Digits

/-!
# Quoted strings in TOML

There are four notations: basic strings between quotes, with escapes; literal strings between
apostrophes, without; and of both a notation with three marks on either side, which may span lines.

In the notations for several lines, a newline right after the opening marks is dropped, and up to two
marks may stand before the closing ones.  In a basic one a backslash at the end of a line drops all white
space up to the next character.

Each reader gets the text after the opening marks and returns the content and the text after the
closing ones.
-/

namespace QueryFederation
namespace Toml

/-- A mark around basic strings. -/
def quote : Char :=
  '"'

/-- A mark around literal strings. -/
def apostrophe : Char :=
  '\''

/-- Control characters other than the tab may not stand in a document. -/
def isControl (character : Char) : Bool :=
  (decide (character.toNat < 32) && character != '\t') || character == '\x7f'

/-- White space within a line. -/
def isInlineSpace (character : Char) : Bool :=
  character == ' ' || character == '\t'

/-- A newline in front: the text of it and the rest. -/
def newline? : List Char -> Option (List Char × List Char)
  | '\n' :: rest => some (['\n'], rest)
  | '\r' :: '\n' :: rest => some (['\r', '\n'], rest)
  | _ => none

/-- The character with a code point, unless it is half of a surrogate pair or beyond all. -/
def codePoint? (code : Nat) : Option Char :=
  if valid : code.isValidChar then some (Char.ofNatAux code valid) else none

/-- Read a code point of a number of hexadecimal digits. -/
def escapedCode? (width : Nat) (text : List Char) : Option (Char × List Char) :=
  let digits := text.take width
  if digits.length = width then
    ((Digits.hexadecimalNumber? digits).bind codePoint?).map fun character =>
      (character, text.drop width)
  else none

/-- Read an escape after its backslash. -/
def escape? : List Char -> Option (Char × List Char)
  | [] => none
  | marker :: rest =>
      match marker with
      | 'b' => some ('\x08', rest)
      | 't' => some ('\t', rest)
      | 'n' => some ('\n', rest)
      | 'f' => some ('\x0c', rest)
      | 'r' => some ('\r', rest)
      | 'e' => some ('\x1b', rest)
      | '"' => some ('"', rest)
      | '\\' => some ('\\', rest)
      | 'x' => escapedCode? 2 rest
      | 'u' => escapedCode? 4 rest
      | 'U' => escapedCode? 8 rest
      | _ => none

/-- The text after white space and newlines, when a backslash ends a line; nothing when something else
stands before the end of the line. -/
def continuation? (text : List Char) : Option (List Char) :=
  let rest := text.dropWhile isInlineSpace
  (newline? rest).map fun _ =>
    rest.dropWhile fun character => isInlineSpace character || character == '\n' || character == '\r'

/-- Put a piece in front of a content. -/
def prepend (piece : List Char) (read : Option (List Char × List Char)) :
    Option (List Char × List Char) :=
  read.map fun (content, rest) => (piece ++ content, rest)

/-- Read a basic string on one line. -/
def basic? : Nat -> List Char -> Option (List Char × List Char)
  | 0, _ => none
  | _ + 1, [] => none
  | _ + 1, '"' :: rest => some ([], rest)
  | bound + 1, '\\' :: rest =>
      match escape? rest with
      | some (character, rest) => prepend [character] (basic? bound rest)
      | none => none
  | bound + 1, character :: rest =>
      if isControl character then none else prepend [character] (basic? bound rest)

/-- Read a literal string on one line. -/
def literal? : List Char -> Option (List Char × List Char)
  | [] => none
  | character :: rest =>
      if character = apostrophe then some ([], rest)
      else if isControl character then none
      else prepend [character] (literal? rest)

/-- The content and the rest when a run of marks ends a string: three of them close it, and up to two
more belong to the content. -/
def closing? (mark : Char) (text : List Char) : Option (List Char × List Char) :=
  let count := (text.takeWhile (· == mark)).length
  if 3 ≤ count then some (List.replicate (min count 5 - 3) mark, text.drop (min count 5)) else none

/-- Read a basic string over several lines, after the newline that may follow its opening marks. -/
def basicLines? : Nat -> List Char -> Option (List Char × List Char)
  | 0, _ => none
  | _ + 1, [] => none
  | bound + 1, '"' :: rest =>
      match closing? quote ('"' :: rest) with
      | some ended => some ended
      | none => prepend ['"'] (basicLines? bound rest)
  | bound + 1, '\\' :: rest =>
      match continuation? rest with
      | some rest => basicLines? bound rest
      | none =>
          match escape? rest with
          | some (character, rest) => prepend [character] (basicLines? bound rest)
          | none => none
  | bound + 1, character :: rest =>
      match newline? (character :: rest) with
      | some (newline, rest) => prepend newline (basicLines? bound rest)
      | none => if isControl character then none else prepend [character] (basicLines? bound rest)

/-- Read a literal string over several lines, after the newline that may follow its opening marks. -/
def literalLines? : Nat -> List Char -> Option (List Char × List Char)
  | 0, _ => none
  | _ + 1, [] => none
  | bound + 1, character :: rest =>
      match closing? apostrophe (character :: rest) with
      | some ended => some ended
      | none =>
          match newline? (character :: rest) with
          | some (newline, rest) => prepend newline (literalLines? bound rest)
          | none =>
              if isControl character then none else prepend [character] (literalLines? bound rest)

/-- A text without a newline in front. -/
def dropNewline (text : List Char) : List Char :=
  match newline? text with
  | some (_, rest) => rest
  | none => text

/-- Read a string on one line that begins here. -/
def quoted? : List Char -> Option (List Char × List Char)
  | '"' :: rest => basic? (rest.length + 1) rest
  | '\'' :: rest => literal? rest
  | _ => none

/-- Read a string in any of the four notations that begins here. -/
def text? : List Char -> Option (List Char × List Char)
  | '"' :: '"' :: '"' :: rest => basicLines? (rest.length + 1) (dropNewline rest)
  | '\'' :: '\'' :: '\'' :: rest => literalLines? (rest.length + 1) (dropNewline rest)
  | text => quoted? text

end Toml
end QueryFederation
