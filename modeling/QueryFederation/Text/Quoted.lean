import QueryFederation.Text.Unprintable

/-!
# Quoted texts in messages

A message that repeats a foreign text puts it between double quotes.  The quote and the backslash are
escaped, the usual control characters get their short escapes, and every other character that
does not show is written by its code point in braces.
-/

namespace QueryFederation
namespace Quoted

/-- The written form of one character. -/
def writeCharacter (character : Char) : List Char :=
  match character with
  | '\x00' => ['\\', '0']
  | '\t' => ['\\', 't']
  | '\r' => ['\\', 'r']
  | '\n' => ['\\', 'n']
  | '"' => ['\\', '"']
  | '\\' => ['\\', '\\']
  | _ =>
      if Unprintable.isUnprintable character then
        '\\' :: 'u' :: '\x7b' :: Nat.toDigits 16 character.toNat ++ ['\x7d']
      else [character]

/-- The quoted form of a text. -/
def write (text : String) : String :=
  String.ofList ('"' :: text.toList.flatMap writeCharacter ++ ['"'])

end Quoted
end QueryFederation
