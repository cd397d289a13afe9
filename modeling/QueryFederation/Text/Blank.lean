/-!
# White space

The characters of the Unicode property White_Space.  Some formats skip any of them between their
parts, where the usual four would be too few.
-/

namespace QueryFederation
namespace Blank

/-- The code points of the property White_Space that lie outside the runs 9 to 13 and 8192 to
8202. -/
def scattered : List Nat :=
  [0x20, 0x85, 0xA0, 0x1680, 0x2028, 0x2029, 0x202F, 0x205F, 0x3000]

/-- Whether a character is white space. -/
def isBlank (character : Char) : Bool :=
  let code := character.toNat
  decide (9 ≤ code ∧ code ≤ 13) || decide (0x2000 ≤ code ∧ code ≤ 0x200A) ||
    scattered.contains code

/-- A text without the white space in front. -/
def dropLeading (text : List Char) : List Char :=
  text.dropWhile isBlank

/-- A text without the white space at its end. -/
def dropTrailing (text : List Char) : List Char :=
  (text.reverse.dropWhile isBlank).reverse

end Blank
end QueryFederation
