import QueryFederation.Json.Basic

/-!
# Writing JSON documents

There are two layouts.  The compact one has no white space at all.  The indented one puts every item
and every member on a line of its own, two spaces further in than what contains it; an empty array or
object stays on one line.

A string is written with the short escapes where they exist, and with a code point in four digits for
the other control characters below the space.  All other characters are written as they are.
-/

namespace QueryFederation
namespace Json

/-- The written form of one character of a string. -/
def writeCharacter (character : Char) : List Char :=
  match character with
  | '"' => ['\\', '"']
  | '\\' => ['\\', '\\']
  | '\n' => ['\\', 'n']
  | '\r' => ['\\', 'r']
  | '\t' => ['\\', 't']
  | '\x08' => ['\\', 'b']
  | '\x0c' => ['\\', 'f']
  | _ =>
      if character.toNat < 32 then
        ['\\', 'u', '0', '0', Nat.digitChar (character.toNat / 16),
          Nat.digitChar (character.toNat % 16)]
      else [character]

/-- The written form of a string. -/
def writeString (text : String) : List Char :=
  '"' :: text.toList.flatMap writeCharacter ++ ['"']

mutual

/-- The compact form of a document.  What can only be skipped was never built by a writer; it is
written as null. -/
def writeCompact : Json -> List Char
  | null => "null".toList
  | boolean value => (if value then "true" else "false").toList
  | number written => written.write
  | string text => writeString text
  | array items => '[' :: writeItems items ++ [']']
  | object members => '\x7b' :: writeMembers members ++ ['\x7d']
  | skippable => "null".toList

/-- Items with commas between them. -/
def writeItems : List Json -> List Char
  | [] => []
  | [item] => writeCompact item
  | item :: rest => writeCompact item ++ ',' :: writeItems rest

/-- Members with commas between them. -/
def writeMembers : List (String × Json) -> List Char
  | [] => []
  | [(name, value)] => writeString name ++ ':' :: writeCompact value
  | (name, value) :: rest =>
      writeString name ++ ':' :: writeCompact value ++ ',' :: writeMembers rest

end

/-- A new line and the spaces of its depth. -/
def newLine (depth : Nat) : List Char :=
  '\n' :: List.replicate (2 * depth) ' '

mutual

/-- The indented form of a document that stands at a depth. -/
def writeIndented (depth : Nat) : Json -> List Char
  | null => "null".toList
  | boolean value => (if value then "true" else "false").toList
  | number written => written.write
  | string text => writeString text
  | array [] => ['[', ']']
  | array (item :: rest) =>
      '[' :: newLine (depth + 1) ++ writeIndented (depth + 1) item ++
        writeFurtherItems (depth + 1) rest ++ newLine depth ++ [']']
  | object [] => ['\x7b', '\x7d']
  | object ((name, value) :: rest) =>
      '\x7b' :: newLine (depth + 1) ++ writeString name ++ ':' :: ' ' ::
        writeIndented (depth + 1) value ++
        writeFurtherMembers (depth + 1) rest ++ newLine depth ++ ['\x7d']
  | skippable => "null".toList

/-- The items after the first, each with the comma before it. -/
def writeFurtherItems (depth : Nat) : List Json -> List Char
  | [] => []
  | item :: rest =>
      ',' :: newLine depth ++ writeIndented depth item ++ writeFurtherItems depth rest

/-- The members after the first, each with the comma before it. -/
def writeFurtherMembers (depth : Nat) : List (String × Json) -> List Char
  | [] => []
  | (name, value) :: rest =>
      ',' :: newLine depth ++ writeString name ++ ':' :: ' ' :: writeIndented depth value ++
        writeFurtherMembers depth rest

end

/-- The compact text of a document. -/
def compact (document : Json) : String :=
  String.ofList (writeCompact document)

/-- The indented text of a document. -/
def indented (document : Json) : String :=
  String.ofList (writeIndented 0 document)

end Json
end QueryFederation
