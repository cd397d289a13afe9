import QueryFederation.Toml.Quoted
import QueryFederation.Toml.Scalar
import QueryFederation.Toml.Table

/-!
# Reading TOML documents

A document is a sequence of lines.  A line opens a table, adds to a list of tables, or assigns a value
to a name.  Names are bare or quoted and may be joined by points.  Values within brackets and braces
may span lines, hold comments, and end in a comma.

The recursion is bounded by the length of the text, and arrays and inline tables may be nested to a
fixed depth.
-/

namespace QueryFederation
namespace Toml

/-- Arrays and inline tables may be nested to this depth. -/
def depthLimit : Nat :=
  80

/-- A text without the white space in front, on the same line. -/
def dropInlineSpace (text : List Char) : List Char :=
  text.dropWhile isInlineSpace

/-- The text after a comment, from the end of its line on. -/
def afterComment? : List Char -> Option (List Char)
  | [] => some []
  | character :: rest =>
      match newline? (character :: rest) with
      | some _ => some (character :: rest)
      | none => if isControl character then none else afterComment? rest

/-- The text after white space and a comment that may follow it, on the same line. -/
def dropLineRest? (text : List Char) : Option (List Char) :=
  match dropInlineSpace text with
  | '#' :: rest => afterComment? rest
  | rest => some rest

/-- The text after the end of a line. -/
def endLine? (text : List Char) : Option (List Char) :=
  match dropLineRest? text with
  | some [] => some []
  | some rest => (newline? rest).map Prod.snd
  | none => none

/-- The text after white space, comments and newlines. -/
def dropBlank? : Nat -> List Char -> Option (List Char)
  | 0, _ => none
  | bound + 1, text =>
      match dropLineRest? text with
      | none => none
      | some rest =>
          match newline? rest with
          | some (_, rest) => dropBlank? bound rest
          | none => some rest

/-- The text after white space, comments and newlines, as far as they reach. -/
def skipBlank? (text : List Char) : Option (List Char) :=
  dropBlank? (text.length + 1) text

/-- Whether a character may stand in a name without quotes. -/
def isBare (character : Char) : Bool :=
  character.isAlphanum || character == '-' || character == '_'

/-- Read one name. -/
def name? (text : List Char) : Option (String × List Char) :=
  match quoted? text with
  | some (content, rest) => some (String.ofList content, rest)
  | none =>
      let bare := text.takeWhile isBare
      if bare.isEmpty then none else some (String.ofList bare, text.dropWhile isBare)

/-- Read names joined by points. -/
def names? : Nat -> List Char -> Option (List String × List Char)
  | 0, _ => none
  | bound + 1, text => do
      let (name, text) <- name? (dropInlineSpace text)
      match dropInlineSpace text with
      | '.' :: rest => do
          let (names, rest) <- names? bound rest
          some (name :: names, rest)
      | rest => some ([name], rest)

/-- Read names joined by points, the last one apart. -/
def path? (text : List Char) : Option (List String × String × List Char) := do
  let (names, rest) <- names? (text.length + 1) text
  let name <- names.getLast?
  some (names.dropLast, name, rest)

/-- Whether a character ends a value without quotes. -/
def endsScalar (character : Char) : Bool :=
  isInlineSpace character || isControl character || character == ',' || character == ']' ||
    character == '\x7d' || character == '#' || character == '='

/-- Divide a text after a value without quotes.  A time of day that follows a date after one space
belongs to it. -/
def splitScalar (text : List Char) : List Char × List Char :=
  let front := text.takeWhile (fun character => !endsScalar character)
  let rest := text.dropWhile (fun character => !endsScalar character)
  match date? front, rest with
  | some [], ' ' :: digit :: later =>
      if digit.isDigit then
        (front ++ ' ' :: (digit :: later).takeWhile (fun character => !endsScalar character),
          (digit :: later).dropWhile (fun character => !endsScalar character))
      else (front, rest)
  | _, _ => (front, rest)

/-- Read a value without quotes. -/
def unquoted? (text : List Char) : Option (Toml × List Char) :=
  let (front, rest) := splitScalar text
  (scalar? front).map fun value => (value, rest)

mutual

/-- Read a value.  The two bounds are those of the recursion and of the nesting. -/
def value? : Nat -> Nat -> List Char -> Option (Toml × List Char)
  | 0, _, _ => none
  | bound + 1, depth, text =>
      match text with
      | '[' :: rest =>
          if depth = 0 then none
          else (items? bound (depth - 1) rest).map fun (items, rest) => (.array items, rest)
      | '\x7b' :: rest =>
          if depth = 0 then none
          else do
            let (assignments, rest) <- pairs? bound (depth - 1) rest
            let table <- inlineTable? assignments
            some (table, rest)
      | '"' :: _ => (text? text).map fun (content, rest) => (.string (String.ofList content), rest)
      | '\'' :: _ => (text? text).map fun (content, rest) => (.string (String.ofList content), rest)
      | _ => unquoted? text

/-- Read the items of an array up to its closing bracket. -/
def items? : Nat -> Nat -> List Char -> Option (List Toml × List Char)
  | 0, _, _ => none
  | bound + 1, depth, text => do
      let text <- skipBlank? text
      match text with
      | ']' :: rest => some ([], rest)
      | _ => do
          let (item, text) <- value? bound depth text
          let text <- skipBlank? text
          match text with
          | ']' :: rest => some ([item], rest)
          | ',' :: rest => do
              let (items, rest) <- items? bound depth rest
              some (item :: items, rest)
          | _ => none

/-- Read the assignments of an inline table up to its closing brace. -/
def pairs? : Nat -> Nat -> List Char -> Option (List Draft.Assignment × List Char)
  | 0, _, _ => none
  | bound + 1, depth, text => do
      let text <- skipBlank? text
      match text with
      | '\x7d' :: rest => some ([], rest)
      | _ => do
          let (assignment, text) <- assignment? bound depth text
          let text <- skipBlank? text
          match text with
          | '\x7d' :: rest => some ([assignment], rest)
          | ',' :: rest => do
              let (assignments, rest) <- pairs? bound depth rest
              some (assignment :: assignments, rest)
          | _ => none

/-- Read an assignment. -/
def assignment? : Nat -> Nat -> List Char -> Option (Draft.Assignment × List Char)
  | 0, _, _ => none
  | bound + 1, depth, text => do
      let (path, name, text) <- path? text
      match text with
      | '=' :: rest => do
          let (value, rest) <- value? bound depth (dropInlineSpace rest)
          some (⟨path, name, value⟩, rest)
      | _ => none

end

/-- A line of a document. -/
inductive Line where
  | blank
  | header (isElement : Bool) (path : List String) (name : String)
  | assignment (assignment : Draft.Assignment)

/-- Read the rest of a header after its opening brackets. -/
def header? (isElement : Bool) (text : List Char) : Option (Line × List Char) := do
  let (path, name, text) <- path? text
  match isElement, text with
  | false, ']' :: rest => some (.header false path name, rest)
  | true, ']' :: ']' :: rest => some (.header true path name, rest)
  | _, _ => none

/-- Read one line without its end. -/
def line? (text : List Char) : Option (Line × List Char) :=
  match text with
  | [] => some (.blank, [])
  | '[' :: '[' :: rest => header? true rest
  | '[' :: rest => header? false rest
  | first :: _ =>
      if first = '#' ∨ first = '\n' ∨ first = '\r' then some (.blank, text)
      else (assignment? (4 * text.length + 4) depthLimit text).map fun (assignment, rest) =>
        (.assignment assignment, rest)

/-- Read all lines. -/
def lines? : Nat -> List Char -> Option (List Line)
  | 0, _ => none
  | bound + 1, text =>
      if text.isEmpty then some []
      else do
        let (line, text) <- line? (dropInlineSpace text)
        let text <- endLine? text
        let lines <- lines? bound text
        some (line :: lines)

/-- Group lines: the assignments before the first header, and the parts that headers begin. -/
def group : List Line -> List Draft.Assignment × List Section
  | [] => ([], [])
  | .blank :: lines => group lines
  | .assignment assignment :: lines =>
      let (assignments, parts) := group lines
      (assignment :: assignments, parts)
  | .header isElement path name :: lines =>
      let (assignments, parts) := group lines
      ([], ⟨isElement, path, name, assignments⟩ :: parts)

/-- A text without the mark of its byte order. -/
def dropByteOrderMark : List Char -> List Char
  | '\ufeff' :: rest => rest
  | text => text

/-- Read a document. -/
def parse? (text : String) : Option Toml :=
  let characters := dropByteOrderMark text.toList
  (lines? (characters.length + 1) characters).bind fun lines =>
    let (assignments, parts) := group lines
    document? assignments parts

end Toml
end QueryFederation
