import Mathlib.Algebra.Order.Round
import Mathlib.Data.Rat.Floor
import Mathlib.Tactic.FieldSimp
import QueryFederation.Proofs.Number.Doubles

/-!
# Rounding by procedure

The procedure that turns an exact quotient into a double finds the binary logarithm, fixes the exponent of
the last digit by it, and rounds the quotient to a whole number of units of that digit.  It is shown here
to give the nearest double, or an overflow exactly from the bound on.

Doubles with the exponent of the last digit or a greater one are whole multiples of that digit, so none of
them is nearer than the rounded multiple.  Doubles with a smaller exponent lie below a power of two that
the quantity has reached, and are farther away than that power.
-/

namespace QueryFederation

/-! ## Powers as natural numbers -/

/-- A power with a natural exponent, as the procedures compute it. -/
theorem zpow_eq_pow {base : Nat} {exponent : Int} (nonneg : 0 ≤ exponent) :
    (base : ℚ) ^ exponent = (Nat.pow base exponent.toNat : Nat) := by
  rw [Nat.pow_eq, Nat.cast_pow, ← zpow_natCast, Int.toNat_of_nonneg nonneg]

/-- A power with a negative exponent is divided by. -/
theorem zpow_eq_inv {base : Nat} {exponent : Int} (negative : ¬ 0 ≤ exponent) :
    (base : ℚ) ^ exponent = ((Nat.pow base (-exponent).toNat : Nat) : ℚ)⁻¹ := by
  rw [← zpow_eq_pow (by omega), zpow_neg, inv_inv]

namespace Rounding

variable {num den : Nat}

/-- A quotient is its whole part and a fraction, and the comparisons of the remainder are comparisons of
the fraction with one half. -/
theorem exists_fraction (num : Nat) (positive : 0 < den) :
    exists fraction : ℚ, (num / den : ℚ) = (num / den : Nat) + fraction ∧ 0 ≤ fraction ∧ fraction < 1 ∧
      (2 * (num % den) < den <-> fraction < 1 / 2) ∧ (den < 2 * (num % den) <-> 1 / 2 < fraction) := by
  have cast : (0 : ℚ) < den := by exact_mod_cast positive
  have divided : ((den * (num / den) + num % den : Nat) : ℚ) = num := by rw [Nat.div_add_mod]
  push_cast at divided
  have rest : ((num % den : Nat) : ℚ) < den := by exact_mod_cast Nat.mod_lt num positive
  refine ⟨(num % den : Nat) / den, ?_, by positivity, (div_lt_one cast).mpr rest, ?_, ?_⟩
  · field_simp
    linarith
  · rw [div_lt_div_iff₀ cast two_pos, one_mul, mul_comm]
    exact_mod_cast Iff.rfl
  · rw [div_lt_div_iff₀ two_pos cast, one_mul, mul_comm]
    exact_mod_cast Iff.rfl

/-- A whole number to which a quantity is rounded: it is at most one half away, and even at a tie. -/
structure IsHalfEven (quantity : ℚ) (whole : Nat) : Prop where
  near : |quantity - whole| ≤ 1 / 2
  even : |quantity - whole| = 1 / 2 -> whole % 2 = 0

theorem isHalfEven_halfEven (num : Nat) (positive : 0 < den) :
    IsHalfEven (num / den) (halfEven num den) := by
  rcases exists_fraction num positive with ⟨fraction, parts, nonneg, lt_one, below, above⟩
  have down : |(num / den : ℚ) - (num / den : Nat)| = fraction := by
    rw [parts, add_sub_cancel_left, abs_of_nonneg nonneg]
  have up : |(num / den : ℚ) - (num / den + 1 : Nat)| = 1 - fraction := by
    rw [parts, Nat.cast_add_one, add_sub_add_left_eq_sub, abs_sub_comm, abs_of_pos (by linarith)]
  unfold halfEven
  dsimp only
  split
  · rename_i isBelow
    have half := below.mp isBelow
    exact ⟨by linarith, fun tie => by linarith⟩
  · rename_i notBelow
    have half := not_lt.mp (mt below.mpr notBelow)
    split
    · rename_i isAbove
      have half := above.mp isAbove
      exact ⟨by linarith, fun tie => by linarith⟩
    · rename_i notAbove
      have middle : fraction = 1 / 2 := le_antisymm (not_lt.mp (mt above.mpr notAbove)) half
      refine ⟨?_, fun _ => by omega⟩
      rcases Nat.mod_two_eq_zero_or_one (num / den) with isEven | isOdd
      · rw [isEven, Nat.add_zero, down, middle]
      · rw [isOdd, up, middle]
        norm_num

/-- With ties going upward a quotient is rounded as the library rounds. -/
theorem round_eq_halfUp (num : Nat) (positive : 0 < den) :
    round (num / den : ℚ) = halfUp num den := by
  rcases exists_fraction num positive with ⟨fraction, parts, nonneg, lt_one, below, _⟩
  rw [round_eq, Int.floor_eq_iff, parts]
  unfold halfUp
  dsimp only
  split
  · rename_i isBelow
    have half := below.mp isBelow
    rw [Int.cast_natCast]
    constructor <;> linarith
  · rename_i notBelow
    have half := not_lt.mp (mt below.mpr notBelow)
    rw [Int.cast_natCast, Nat.cast_add_one]
    constructor <;> linarith

/-- The nearest whole number; a half goes away from zero. -/
def awayFromZero (quantity : ℚ) : Int :=
  if quantity < 0 then -round (-quantity) else round quantity

theorem awayFromZero_intCast (whole : Int) : awayFromZero whole = whole := by
  unfold awayFromZero
  split
  · rw [← Int.cast_neg, round_intCast, neg_neg]
  · exact round_intCast whole

/-- Rounding away from zero does not come back over a whole number. -/
theorem le_awayFromZero {quantity : ℚ} {bound : Nat} (large : bound ≤ |quantity|) :
    bound ≤ (awayFromZero quantity).natAbs := by
  have reaches {magnitude : ℚ} (le : bound ≤ magnitude) : (bound : Int) ≤ round magnitude := by
    rw [round_eq, Int.le_floor, Int.cast_natCast]
    linarith
  unfold awayFromZero
  split
  · rename_i negative
    rw [abs_of_neg negative] at large
    have le := reaches large
    omega
  · rename_i nonneg
    rw [abs_of_nonneg (not_lt.mp nonneg)] at large
    have le := reaches large
    omega

namespace IsHalfEven

variable {quantity : ℚ} {whole : Nat}

/-- Two whole numbers have a distance of at least one. -/
theorem one_le_distance {first second : Nat} (differs : first ≠ second) :
    (1 : ℚ) ≤ |(first : ℚ) - second| := by
  have apart : 1 ≤ |(first : Int) - second| := Int.one_le_abs (by omega)
  exact_mod_cast apart

theorem closest (rounded : IsHalfEven quantity whole) (other : Nat) :
    |quantity - whole| ≤ |quantity - other| := by
  by_cases same : whole = other
  · rw [same]
  · have apart := one_le_distance same
    have near := rounded.near
    have triangle := abs_sub_le (whole : ℚ) quantity other
    rw [abs_sub_comm (whole : ℚ) quantity] at triangle
    linarith

theorem even_of_tie (rounded : IsHalfEven quantity whole) {other : Nat} (differs : other ≠ whole)
    (tie : |quantity - other| = |quantity - whole|) : whole % 2 = 0 := by
  have apart := one_le_distance differs
  have near := rounded.near
  have triangle := abs_sub_le (other : ℚ) quantity whole
  rw [abs_sub_comm (other : ℚ) quantity, tie] at triangle
  exact rounded.even (by linarith)

end IsHalfEven
end Rounding

namespace Binary64

open Rounding (IsHalfEven isHalfEven_halfEven)

variable {num den : Nat}

/-! ## The binary logarithm -/

theorem log2_bounds (positive : 0 < num) :
    (2 : ℚ) ^ (num.log2 : Int) ≤ num ∧ (num : ℚ) < 2 ^ ((num.log2 : Int) + 1) := by
  constructor
  · rw [zpow_natCast]
    exact_mod_cast Nat.log2_self_le positive.ne'
  · rw [zpow_add_one₀ two_ne_zero, zpow_natCast, ← pow_succ]
    exact_mod_cast Nat.lt_log2_self

/-- The comparison with a power of two is made between natural numbers. -/
theorem reached_iff (num : Nat) (positive : 0 < den) (power : Int) :
    (if 0 ≤ power then decide (den * Nat.pow 2 power.toNat ≤ num)
      else decide (den ≤ num * Nat.pow 2 (-power).toNat)) = true <->
      (2 : ℚ) ^ power ≤ num / den := by
  have cast : (0 : ℚ) < den := by exact_mod_cast positive
  have two : ((2 : Nat) : ℚ) = 2 := Nat.cast_two
  rw [le_div_iff₀ cast, ← two]
  split
  · rename_i nonneg
    rw [zpow_eq_pow nonneg, decide_eq_true_iff, Nat.mul_comm]
    exact_mod_cast Iff.rfl
  · rename_i negative
    have scale : (0 : ℚ) < (Nat.pow 2 (-power).toNat : Nat) := by exact_mod_cast Nat.two_pow_pos _
    rw [zpow_eq_inv negative, decide_eq_true_iff, inv_mul_le_iff₀ scale, mul_comm]
    exact_mod_cast Iff.rfl

theorem floorLog2_bounds (numPositive : 0 < num) (denPositive : 0 < den) :
    (2 : ℚ) ^ floorLog2 num den ≤ num / den ∧ (num / den : ℚ) < 2 ^ (floorLog2 num den + 1) := by
  rcases log2_bounds numPositive with ⟨numLower, numUpper⟩
  rcases log2_bounds denPositive with ⟨denLower, denUpper⟩
  have reached := reached_iff num denPositive ((num.log2 : Int) - (den.log2 : Int))
  have cast : (0 : ℚ) < den := by exact_mod_cast denPositive
  unfold floorLog2
  dsimp only
  by_cases isReached : (2 : ℚ) ^ ((num.log2 : Int) - (den.log2 : Int)) ≤ num / den
  · rw [if_pos (reached.mpr isReached)]
    refine ⟨isReached, ?_⟩
    rw [div_lt_iff₀ cast]
    calc (num : ℚ) < 2 ^ ((num.log2 : Int) + 1) := numUpper
      _ = 2 ^ ((num.log2 : Int) - (den.log2 : Int) + 1) * 2 ^ (den.log2 : Int) := by
          rw [← zpow_add₀ two_ne_zero]
          congr 1
          omega
      _ ≤ 2 ^ ((num.log2 : Int) - (den.log2 : Int) + 1) * den :=
          mul_le_mul_of_nonneg_left denLower (by positivity)
  · rw [if_neg (mt reached.mp isReached), Int.sub_add_cancel]
    refine ⟨?_, not_le.mp isReached⟩
    rw [le_div_iff₀ cast]
    calc (2 : ℚ) ^ ((num.log2 : Int) - (den.log2 : Int) - 1) * den
        ≤ 2 ^ ((num.log2 : Int) - (den.log2 : Int) - 1) * 2 ^ ((den.log2 : Int) + 1) :=
          mul_le_mul_of_nonneg_left denUpper.le (by positivity)
      _ = 2 ^ (num.log2 : Int) := by
          rw [← zpow_add₀ two_ne_zero]
          congr 1
          omega
      _ ≤ num := numLower

/-! ## The last digit -/

/-- The last binary digit that a double near a quantity can have: the quantity has at most 53 digits down
to it, and all of them unless it is the least one. -/
structure IsLastDigit (quantity : ℚ) (exponent : Int) : Prop where
  least : -1074 ≤ exponent
  lt : quantity < 2 ^ 53 * 2 ^ exponent
  le : -1074 < exponent -> 2 ^ 52 * 2 ^ exponent ≤ quantity

theorem isLastDigit_lastBit (numPositive : 0 < num) (denPositive : 0 < den) :
    IsLastDigit (num / den) (lastBit num den) := by
  rcases floorLog2_bounds numPositive denPositive with ⟨lower, upper⟩
  unfold lastBit
  generalize floorLog2 num den = log at lower upper ⊢
  constructor
  · exact le_max_right _ _
  · calc (num / den : ℚ) < 2 ^ (log + 1) := upper
      _ ≤ 2 ^ (53 + max (log - 52) (-1074)) := zpow_le_zpow_right₀ one_le_two (by omega)
      _ = 2 ^ 53 * 2 ^ max (log - 52) (-1074) := zpow_add₀ two_ne_zero 53 _
  · intro above
    calc (2 ^ 52 * 2 ^ max (log - 52) (-1074) : ℚ) = 2 ^ (52 + max (log - 52) (-1074)) :=
          (zpow_add₀ two_ne_zero 52 _).symm
      _ = 2 ^ log := by
          congr 1
          omega
      _ ≤ num / den := lower

/-- The mantissa is the quotient in units of the last digit, rounded. -/
theorem isHalfEven_mantissa (num : Nat) (positive : 0 < den) (exponent : Int) :
    IsHalfEven (num / den / 2 ^ exponent)
      (if 0 ≤ exponent then Rounding.halfEven num (den * Nat.pow 2 exponent.toNat)
        else Rounding.halfEven (num * Nat.pow 2 (-exponent).toNat) den) := by
  have two : ((2 : Nat) : ℚ) = 2 := Nat.cast_two
  rw [← two]
  split
  · rename_i nonneg
    rw [zpow_eq_pow nonneg, div_div, ← Nat.cast_mul]
    exact isHalfEven_halfEven num (Nat.mul_pos positive (Nat.two_pow_pos _))
  · rename_i negative
    rw [zpow_eq_inv negative, div_inv_eq_mul, div_mul_eq_mul_div, ← Nat.cast_mul]
    exact isHalfEven_halfEven _ positive

namespace IsLastDigit

variable {quantity : ℚ} {exponent : Int} {mantissa : Nat}

/-- A quantity in units of the last digit. -/
theorem units (quantity : ℚ) (exponent : Int) (count : ℚ) :
    |quantity - count * 2 ^ exponent| = |quantity / 2 ^ exponent - count| * 2 ^ exponent := by
  have power : (0 : ℚ) < 2 ^ exponent := by positivity
  rw [← abs_of_pos power, ← abs_mul, abs_of_pos power, sub_mul, div_mul_cancel₀ _ power.ne']

theorem mantissa_le (digit : IsLastDigit quantity exponent)
    (rounded : IsHalfEven (quantity / 2 ^ exponent) mantissa) : mantissa ≤ 2 ^ 53 := by
  have power : (0 : ℚ) < 2 ^ exponent := by positivity
  have upper : quantity / 2 ^ exponent < 2 ^ 53 := (div_lt_iff₀ power).mpr digit.lt
  have near := (abs_le.mp rounded.near).1
  have cast : (mantissa : ℚ) < (2 ^ 53 + 1 : Nat) := by
    push_cast
    linarith
  exact Nat.le_of_lt_succ (by exact_mod_cast cast)

theorem le_mantissa (digit : IsLastDigit quantity exponent) (above : -1074 < exponent)
    (rounded : IsHalfEven (quantity / 2 ^ exponent) mantissa) : 2 ^ 52 ≤ mantissa := by
  have power : (0 : ℚ) < 2 ^ exponent := by positivity
  have lower : (2 ^ 52 : ℚ) ≤ quantity / 2 ^ exponent := (le_div_iff₀ power).mpr (digit.le above)
  have near := (abs_le.mp rounded.near).2
  have cast : ((2 ^ 52 : Nat) : ℚ) < (mantissa + 1 : Nat) := by
    push_cast
    linarith
  exact Nat.le_of_lt_succ (by exact_mod_cast cast)

/-- The rounded quantity is a double.  After a carry out of the mantissa it is a power of two. -/
theorem exists_double (digit : IsLastDigit quantity exponent)
    (rounded : IsHalfEven (quantity / 2 ^ exponent) mantissa)
    (fits : ¬ (971 < exponent ∨ (exponent = 971 ∧ 2 ^ 53 ≤ mantissa))) :
    exists double : Double, double.negative = false ∧ double.magnitude = mantissa * 2 ^ exponent ∧
      (mantissa % 2 = 0 -> double.mantissa % 2 = 0) := by
  have least := digit.least
  have upper := digit.mantissa_le rounded
  by_cases carry : mantissa = 2 ^ 53
  · have range : -1074 ≤ exponent + 1 ∧ exponent + 1 ≤ 971 := by omega
    refine ⟨⟨false, 2 ^ 52, exponent + 1, by decide, range, .inl (le_refl _)⟩, rfl, ?_,
      fun _ => by norm_num⟩
    rw [Double.magnitude, carry, zpow_add_one₀ two_ne_zero]
    push_cast
    ring
  · have range : -1074 ≤ exponent ∧ exponent ≤ 971 := by omega
    have normal : 2 ^ 52 ≤ mantissa ∨ exponent = -1074 := by
      by_cases above : -1074 < exponent
      · exact .inl (digit.le_mantissa above rounded)
      · exact .inr (by omega)
    exact ⟨⟨false, mantissa, exponent, by omega, range, normal⟩, rfl, rfl, id⟩

/-- Doubles with smaller exponents are farther away than the rounded multiple of the last digit. -/
theorem farther (digit : IsLastDigit quantity exponent)
    (rounded : IsHalfEven (quantity / 2 ^ exponent) mantissa) {other : Double}
    (lower : other.exponent < exponent) :
    |quantity - mantissa * 2 ^ exponent| < |quantity - other.magnitude| := by
  have reached := digit.le (by have := other.exponent_range; omega)
  have below := other.magnitude_lt lower
  have power : (0 : ℚ) < 2 ^ exponent := by positivity
  calc |quantity - mantissa * 2 ^ exponent|
      ≤ |quantity - (2 ^ 52 : Nat) * 2 ^ exponent| := by
        rw [units, units]
        exact mul_le_mul_of_nonneg_right (rounded.closest (2 ^ 52)) power.le
    _ = quantity - 2 ^ 52 * 2 ^ exponent := by
        push_cast
        exact abs_of_nonneg (sub_nonneg.mpr reached)
    _ < quantity - other.magnitude := by linarith
    _ = |quantity - other.magnitude| := (abs_of_pos (by linarith)).symm

theorem isNearest (digit : IsLastDigit quantity exponent) (nonneg : 0 ≤ quantity)
    (rounded : IsHalfEven (quantity / 2 ^ exponent) mantissa) {double : Double}
    (unsigned : double.negative = false) (magnitude : double.magnitude = mantissa * 2 ^ exponent)
    (even : mantissa % 2 = 0 -> double.mantissa % 2 = 0) : IsNearest quantity double := by
  have power : (0 : ℚ) < 2 ^ exponent := by positivity
  apply IsNearest.of_magnitudes nonneg unsigned
  · intro other
    rw [magnitude]
    by_cases lower : other.exponent < exponent
    · exact (digit.farther rounded lower).le
    · rcases other.exists_multiple (not_lt.mp lower) with ⟨count, multiple⟩
      rw [multiple, units, units]
      exact mul_le_mul_of_nonneg_right (rounded.closest count) power.le
  · intro other differs tie
    rw [magnitude] at differs tie
    by_cases lower : other.exponent < exponent
    · exact absurd tie.symm (ne_of_lt (digit.farther rounded lower))
    · rcases other.exists_multiple (not_lt.mp lower) with ⟨count, multiple⟩
      rw [multiple] at differs tie
      rw [units, units] at tie
      refine even (rounded.even_of_tie (fun same => differs ?_) (mul_right_cancel₀ power.ne' tie))
      rw [same]

/-- A mantissa or an exponent that is too large comes from a quantity beyond the bound. -/
theorem overflow_iff (digit : IsLastDigit quantity exponent)
    (rounded : IsHalfEven (quantity / 2 ^ exponent) mantissa) :
    (971 < exponent ∨ (exponent = 971 ∧ 2 ^ 53 ≤ mantissa)) <-> overflowBound ≤ quantity := by
  have power : (0 : ℚ) < 2 ^ (970 : Int) := by positivity
  change _ <-> (2 ^ 54 - 1) * 2 ^ (970 : Int) ≤ quantity
  rcases lt_trichotomy exponent 971 with below | rfl | above
  · have le : (2 : ℚ) ^ exponent ≤ 2 ^ (970 : Int) := zpow_le_zpow_right₀ one_le_two (by omega)
    have lt := digit.lt
    refine iff_of_false (by omega) (not_le.mpr ?_)
    generalize (2 : ℚ) ^ (970 : Int) = unit at *
    generalize (2 : ℚ) ^ exponent = own at *
    linarith
  · have next : (2 : ℚ) ^ (971 : Int) = 2 ^ (970 : Int) * 2 := zpow_add_one₀ two_ne_zero 970
    have units : quantity = quantity / 2 ^ (971 : Int) * (2 ^ (970 : Int) * 2) := by
      rw [← next, div_mul_cancel₀ quantity (by positivity)]
    generalize quantity / 2 ^ (971 : Int) = count at units rounded
    rw [units, ← mul_assoc, mul_right_comm, mul_le_mul_iff_of_pos_right power]
    constructor
    · intro large
      have cast : (2 ^ 53 : ℚ) ≤ mantissa := by exact_mod_cast (by omega : 2 ^ 53 ≤ mantissa)
      have near := (abs_le.mp rounded.near).1
      linarith
    · intro large
      refine .inr ⟨rfl, ?_⟩
      by_contra small
      -- The count is then the middle above the last mantissa, which is odd.
      have cast : (mantissa + 1 : ℚ) ≤ 2 ^ 53 := by exact_mod_cast (by omega : mantissa + 1 ≤ 2 ^ 53)
      have near := (abs_le.mp rounded.near).2
      have last : (mantissa + 1 : ℚ) = 2 ^ 53 := by linarith
      have odd : mantissa + 1 = 2 ^ 53 := by exact_mod_cast last
      have even := rounded.even (by rw [abs_of_nonneg (by linarith)]; linarith)
      omega
  · have le : (2 : ℚ) ^ (970 : Int) * 2 ^ (2 : Int) ≤ 2 ^ exponent := by
      rw [← zpow_add₀ two_ne_zero]
      exact zpow_le_zpow_right₀ one_le_two (by omega)
    have reached := digit.le (by omega)
    refine iff_of_true (.inl above) ?_
    generalize (2 : ℚ) ^ (970 : Int) = unit at *
    generalize (2 : ℚ) ^ exponent = own at *
    linarith

end IsLastDigit

/-! ## The rounded quotient -/

/-- What a rounded magnitude says of the quantity that was rounded. -/
inductive Magnitude.IsRounded (quantity : ℚ) : Magnitude -> Prop where
  | overflow (large : overflowBound ≤ quantity) : Magnitude.IsRounded quantity .overflow
  | value {mantissa : Nat} {exponent : Int} {double : Double} (small : quantity < overflowBound)
      (unsigned : double.negative = false) (magnitude : double.magnitude = mantissa * 2 ^ exponent)
      (nearest : IsNearest quantity double) :
      Magnitude.IsRounded quantity (.value mantissa exponent)

/-- Nothing is rounded to zero. -/
theorem nearest_zero (den : Nat) : exists exponent, nearest 0 den = .value 0 exponent := by
  have log : floorLog2 0 den ≤ 0 := by
    unfold floorLog2
    dsimp only
    split <;> rw [Nat.log2_zero] <;> omega
  have small : lastBit 0 den < 971 := by
    unfold lastBit
    omega
  have mantissa : (if 0 ≤ lastBit 0 den then Rounding.halfEven 0 (den * Nat.pow 2 (lastBit 0 den).toNat)
      else Rounding.halfEven (0 * Nat.pow 2 (-lastBit 0 den).toNat) den) = 0 := by
    split <;> simp [Rounding.halfEven]
  refine ⟨lastBit 0 den, ?_⟩
  unfold nearest
  dsimp only
  rw [mantissa, if_neg (by omega)]

theorem isRounded_zero {quantity : ℚ} (nonneg : 0 ≤ quantity) (tiny : quantity < 2 ^ (-1075 : Int))
    (exponent : Int) : (Magnitude.value 0 exponent).IsRounded quantity := by
  have below : (2 : ℚ) ^ (-1075 : Int) ≤ 2 ^ (0 : Int) :=
    zpow_le_zpow_right₀ one_le_two (by decide)
  rw [zpow_zero] at below
  refine .value (tiny.trans (below.trans_lt one_lt_overflowBound)) rfl ?_ (.zero_of_lt nonneg tiny)
  rw [Nat.cast_zero, zero_mul]
  exact Double.zero_value

/-- A quotient is rounded to the nearest double. -/
theorem nearest_isRounded (num : Nat) (positive : 0 < den) : (nearest num den).IsRounded (num / den) := by
  rcases Nat.eq_zero_or_pos num with rfl | numPositive
  · rcases nearest_zero den with ⟨exponent, isZero⟩
    rw [isZero, Nat.cast_zero, zero_div]
    exact isRounded_zero (le_refl 0) (by positivity) exponent
  · have digit := isLastDigit_lastBit numPositive positive
    have rounded := isHalfEven_mantissa num positive (lastBit num den)
    have bound := digit.overflow_iff rounded
    unfold nearest
    dsimp only
    refine iteInduction (motive := Magnitude.IsRounded (num / den)) (fun overflows => ?_)
      (fun fits => ?_)
    · exact .overflow (bound.mp overflows)
    · rcases digit.exists_double rounded fits with ⟨double, unsigned, magnitude, even⟩
      exact .value (not_le.mp (mt bound.mpr fits)) unsigned magnitude
        (digit.isNearest (by positivity) rounded unsigned magnitude even)

/-- What a rounded magnitude stands for under a sign. -/
def Magnitude.number (negative : Bool) : Magnitude -> Number
  | .overflow => .infinite negative
  | .value mantissa exponent => .finite (signed negative (mantissa * 2 ^ exponent))

/-- The sign is put back after the magnitude has been rounded. -/
theorem Magnitude.IsRounded.roundsTo {quantity : ℚ} {magnitude : Magnitude}
    (rounded : magnitude.IsRounded quantity) (nonneg : 0 ≤ quantity) (negative : Bool) :
    RoundsTo (signed negative quantity) (magnitude.number negative) := by
  cases rounded with
  | overflow large =>
      have positive : 0 < quantity := one_pos.trans (one_lt_overflowBound.trans_le large)
      have sign : decide (signed negative quantity < 0) = negative := by
        cases negative with
        | false => exact decide_eq_false (not_lt_of_ge nonneg)
        | true => exact decide_eq_true (neg_neg_of_pos positive)
      have rounds : RoundsTo (signed negative quantity) _ :=
        .infinite (by rw [abs_signed negative nonneg]; exact large)
      rwa [sign] at rounds
  | @value mantissa exponent double small unsigned magnitude nearest =>
      have value : double.value = mantissa * 2 ^ exponent := by
        rw [Double.value, unsigned]
        exact magnitude
      rw [Magnitude.number, ← value]
      cases negative with
      | false => exact .finite (by rwa [abs_of_nonneg (show 0 ≤ signed false quantity from nonneg)]) nearest
      | true =>
          have rounds := RoundsTo.finite (by rwa [abs_neg, abs_of_nonneg nonneg]) nearest.opposite
          rwa [double.opposite_value] at rounds

/-- A multiple of an exact magnitude is rounded to the nearest double. -/
theorem nearestMultiple_isRounded (factor mantissa : Nat) (exponent : Int) :
    (nearestMultiple factor mantissa exponent).IsRounded (factor * (mantissa * 2 ^ exponent)) := by
  have two : ((2 : Nat) : ℚ) = 2 := Nat.cast_two
  rw [← two, ← mul_assoc]
  unfold nearestMultiple
  split
  · rename_i nonneg
    have rounded := nearest_isRounded (factor * mantissa * Nat.pow 2 exponent.toNat) Nat.one_pos
    rw [Nat.cast_one, div_one, Nat.cast_mul, Nat.cast_mul] at rounded
    rwa [zpow_eq_pow nonneg]
  · rename_i negative
    have rounded := nearest_isRounded (factor * mantissa) (Nat.two_pow_pos (-exponent).toNat)
    rw [Nat.cast_mul] at rounded
    rwa [zpow_eq_inv negative, ← div_eq_mul_inv]

end Binary64
end QueryFederation
