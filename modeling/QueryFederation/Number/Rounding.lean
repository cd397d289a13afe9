/-!
# Rounding a quotient of natural numbers

The two roundings of the library act on an exact quotient `num / den`, so no intermediate value
is ever inexact.  They differ only at a tie: one goes to the even neighbour, the other upward,
which for a magnitude is away from zero.

A denominator of zero is outside the domain; both functions then return what division by zero
returns, and no caller passes one.
-/

namespace QueryFederation
namespace Rounding

/-- The nearest natural number to `num / den`; a tie goes to the even neighbour. -/
def halfEven (num den : Nat) : Nat :=
  let quotient := num / den
  let remainder := num % den
  if 2 * remainder < den then quotient
  else if den < 2 * remainder then quotient + 1
  else quotient + quotient % 2

/-- The nearest natural number to `num / den`; a tie goes upward. -/
def halfUp (num den : Nat) : Nat :=
  let quotient := num / den
  let remainder := num % den
  if 2 * remainder < den then quotient else quotient + 1

/-- A whole quotient is its own rounding. -/
theorem halfEven_mul (number : Nat) {den : Nat} (positive : 0 < den) :
    halfEven (number * den) den = number := by
  simp [halfEven, Nat.mul_mod_left, Nat.mul_div_cancel _ positive, positive]

/-- A whole quotient is its own rounding. -/
theorem halfUp_mul (number : Nat) {den : Nat} (positive : 0 < den) :
    halfUp (number * den) den = number := by
  simp [halfUp, Nat.mul_mod_left, Nat.mul_div_cancel _ positive, positive]

end Rounding
end QueryFederation
