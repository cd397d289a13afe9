import QueryFederation.Toml.Quoted

/-!
# Writing TOML strings

A string is written in the plainest notation that can hold it, which is the first of these: a basic
string without a need for escapes, a literal string, a basic and then a literal string over several
lines, and at last a basic string with escapes, over several lines only if the content has a newline.

The notations over several lines begin with a newline exactly when the content has one.
-/

namespace QueryFederation
namespace Toml

/-- What decides on the notation of a string. -/
structure Features where
  /-- A control character other than tab and newline. -/
  hasControl : Bool
  hasBackslash : Bool
  hasQuote : Bool
  hasApostrophe : Bool
  hasNewline : Bool
  /-- Three quotes in a row. -/
  hasQuoteRun : Bool
  /-- Three apostrophes in a row. -/
  hasApostropheRun : Bool
  deriving DecidableEq, Repr

/-- Whether a text has a mark three times in a row. -/
def hasRun (mark : Char) : List Char -> Bool
  | [] => false
  | character :: rest => [mark, mark, mark].isPrefixOf (character :: rest) || hasRun mark rest

/-- What a text has. -/
def featuresOf (text : List Char) : Features :=
  { hasControl := text.any fun character => isControl character && character != '\n'
    hasBackslash := text.contains '\\'
    hasQuote := text.contains quote
    hasApostrophe := text.contains apostrophe
    hasNewline := text.contains '\n'
    hasQuoteRun := hasRun quote text
    hasApostropheRun := hasRun apostrophe text }

/-- The notations of strings. -/
inductive Notation where
  | basic
  | literal
  | basicLines
  | literalLines
  deriving DecidableEq, Repr

/-- The notation in which a string is written. -/
def chooseNotation (features : Features) : Notation :=
  if !features.hasControl && !features.hasBackslash && !features.hasQuote &&
      !features.hasNewline then .basic
  else if !features.hasControl && !features.hasApostrophe && !features.hasNewline then .literal
  else if !features.hasControl && !features.hasBackslash && !features.hasQuoteRun then .basicLines
  else if !features.hasControl && !features.hasApostropheRun then .literalLines
  else if features.hasNewline then .basicLines
  else .basic

/-- The escape of a character that a basic string cannot hold as it is, quotes and newlines apart. -/
def escaped? (character : Char) : Option (List Char) :=
  match character with
  | '\x08' => some ['\\', 'b']
  | '\t' => some ['\\', 't']
  | '\x0c' => some ['\\', 'f']
  | '\r' => some ['\\', 'r']
  | '\\' => some ['\\', '\\']
  | _ =>
      if isControl character && character != '\n' then
        some ['\\', 'u', '0', '0', (Nat.digitChar (character.toNat / 16)).toUpper,
          (Nat.digitChar (character.toNat % 16)).toUpper]
      else none

/-- The content of a basic string on one line. -/
def writeBasic : List Char -> List Char
  | [] => []
  | character :: rest =>
      (if character = '\n' then ['\\', 'n']
        else if character = quote then ['\\', quote]
        else (escaped? character).getD [character]) ++ writeBasic rest

/-- The content of a basic string over several lines.  `run` counts the quotes right before; from the
third one on they are escaped. -/
def writeBasicLines : Nat -> List Char -> List Char
  | _, [] => []
  | run, character :: rest =>
      if character = quote then
        (if 2 ≤ run then ['\\', quote] else [quote]) ++ writeBasicLines (run + 1) rest
      else (escaped? character).getD [character] ++ writeBasicLines 0 rest

/-- Three marks. -/
def marks (mark : Char) : List Char :=
  [mark, mark, mark]

/-- The written form of a string. -/
def writeString (text : String) : List Char :=
  let characters := text.toList
  let features := featuresOf characters
  let opening := if features.hasNewline then ['\n'] else []
  match chooseNotation features with
  | .basic => quote :: writeBasic characters ++ [quote]
  | .literal => apostrophe :: characters ++ [apostrophe]
  | .basicLines => marks quote ++ opening ++ writeBasicLines 0 characters ++ marks quote
  | .literalLines => marks apostrophe ++ opening ++ characters ++ marks apostrophe

end Toml
end QueryFederation
