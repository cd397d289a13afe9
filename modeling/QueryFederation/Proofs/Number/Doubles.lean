import Mathlib.Algebra.Order.Field.Power
import Mathlib.Algebra.Order.Field.Rat
import Mathlib.Tactic.Linarith
import Mathlib.Tactic.NormNum
import Mathlib.Tactic.Positivity
import Mathlib.Tactic.Ring
import QueryFederation.Number.Binary64

/-!
# The nearest double

What a correctly rounded double is, said without any procedure.  The finite doubles are rational numbers
with at most 53 binary digits, the last of which is not below `2 ^ (-1074)`.  Of all of them one lies
nearest to a given rational number, and if two lie equally near, the one with the even mantissa counts.
Quantities from the middle between the greatest double and the next power of two on become infinite.

Evenness belongs to a representation and not to a number, so a double is kept in its normal form: the
mantissa has all its 53 bits, unless the exponent is the least one.  Then the nearest double is the only
one: between two doubles with even mantissas there is always a third.
-/

namespace QueryFederation
namespace Binary64

/-- A quantity whose sign is given apart from it. -/
def signed (negative : Bool) (quantity : ℚ) : ℚ :=
  if negative then -quantity else quantity

theorem abs_signed (negative : Bool) {quantity : ℚ} (nonneg : 0 ≤ quantity) :
    |signed negative quantity| = quantity := by
  cases negative with
  | false => exact abs_of_nonneg nonneg
  | true => exact (abs_neg quantity).trans (abs_of_nonneg nonneg)

/-! ## Finite doubles -/

/-- A finite double in normal form. -/
structure Double where
  negative : Bool
  mantissa : Nat
  exponent : Int
  mantissa_lt : mantissa < 2 ^ 53
  exponent_range : -1074 ≤ exponent ∧ exponent ≤ 971
  normal : 2 ^ 52 ≤ mantissa ∨ exponent = -1074

namespace Double

/-- The number without its sign. -/
def magnitude (double : Double) : ℚ :=
  double.mantissa * 2 ^ double.exponent

/-- The number that a double is. -/
def value (double : Double) : ℚ :=
  signed double.negative double.magnitude

/-- The double with the opposite sign. -/
def opposite (double : Double) : Double :=
  { double with negative := !double.negative }

/-- The double without its sign. -/
def unsigned (double : Double) : Double :=
  { double with negative := false }

/-- Zero has the least exponent. -/
def zero : Double :=
  ⟨false, 0, -1074, by decide, by decide, .inr rfl⟩

variable (double : Double)

theorem magnitude_nonneg : 0 ≤ double.magnitude := by
  unfold magnitude
  positivity

@[simp]
theorem opposite_value : double.opposite.value = -double.value := by
  rcases double with ⟨negative, mantissa, exponent, _, _, _⟩
  cases negative with
  | false => rfl
  | true => exact (neg_neg _).symm

@[simp]
theorem unsigned_value : double.unsigned.value = double.magnitude :=
  rfl

@[simp]
theorem zero_value : zero.value = 0 := by
  simp [value, signed, magnitude, zero]

theorem abs_value : |double.value| = double.magnitude :=
  abs_signed double.negative double.magnitude_nonneg

/-- A double is a whole multiple of every power of two up to that of its exponent. -/
theorem exists_multiple {exponent : Int} (le : exponent ≤ double.exponent) :
    exists count : Nat, double.magnitude = count * 2 ^ exponent := by
  have power : (2 : ℚ) ^ double.exponent =
      2 ^ (double.exponent - exponent).toNat * 2 ^ exponent := by
    rw [← zpow_natCast, ← zpow_add₀ two_ne_zero, Int.toNat_of_nonneg (Int.sub_nonneg_of_le le),
      Int.sub_add_cancel]
  refine ⟨double.mantissa * 2 ^ (double.exponent - exponent).toNat, ?_⟩
  rw [magnitude, power]
  push_cast
  ring

/-- Doubles with smaller exponents lie below those in normal form with a greater one. -/
theorem magnitude_lt {exponent : Int} (lt : double.exponent < exponent) :
    double.magnitude < 2 ^ 52 * 2 ^ exponent := by
  have mantissa : (double.mantissa : ℚ) < 2 ^ 53 := by exact_mod_cast double.mantissa_lt
  have power : (2 : ℚ) ^ (double.exponent + 1) ≤ 2 ^ exponent :=
    zpow_le_zpow_right₀ one_le_two lt
  calc double.magnitude < 2 ^ 53 * 2 ^ double.exponent :=
        mul_lt_mul_of_pos_right mantissa (by positivity)
    _ = 2 ^ 52 * 2 ^ (double.exponent + 1) := by
        rw [zpow_add_one₀ two_ne_zero]
        ring
    _ ≤ 2 ^ 52 * 2 ^ exponent := mul_le_mul_of_nonneg_left power (by positivity)

theorem le_magnitude (above : -1074 < double.exponent) :
    2 ^ 52 * 2 ^ double.exponent ≤ double.magnitude := by
  have mantissa : 2 ^ 52 ≤ double.mantissa := by
    rcases double.normal with full | least
    · exact full
    · exact absurd least (ne_of_gt above)
  have cast : (2 : ℚ) ^ 52 ≤ double.mantissa := by exact_mod_cast mantissa
  exact mul_le_mul_of_nonneg_right cast (by positivity)

variable {double} {other : Double}

theorem exponent_le_of_magnitude_le (le : double.magnitude ≤ other.magnitude) :
    double.exponent ≤ other.exponent := by
  by_contra lower
  have least := other.exponent_range.1
  have above := double.le_magnitude (by omega)
  have below := other.magnitude_lt (by omega : other.exponent < double.exponent)
  exact absurd (above.trans le) (not_le_of_gt below)

/-- The mantissa is determined by the number. -/
theorem mantissa_eq_of_magnitude_eq (same : double.magnitude = other.magnitude) :
    double.mantissa = other.mantissa := by
  have exponents : double.exponent = other.exponent :=
    le_antisymm (exponent_le_of_magnitude_le same.le) (exponent_le_of_magnitude_le same.ge)
  unfold magnitude at same
  rw [exponents] at same
  have power : (2 : ℚ) ^ other.exponent ≠ 0 := by positivity
  exact_mod_cast mul_right_cancel₀ power same

/-- Two doubles with even mantissas are not neighbours. -/
theorem exists_between (lt : double.magnitude < other.magnitude) (even : double.mantissa % 2 = 0)
    (otherEven : other.mantissa % 2 = 0) :
    exists between : Double,
      double.magnitude < between.magnitude ∧ between.magnitude < other.magnitude := by
  have bound := double.mantissa_lt
  have power : (0 : ℚ) < 2 ^ double.exponent := by positivity
  -- The next double has the same exponent, because an even mantissa is not the last one.
  let next : Double :=
    { double with
      negative := false
      mantissa := double.mantissa + 1
      mantissa_lt := by omega
      normal := double.normal.imp_left fun full => by omega }
  have step : next.magnitude = double.magnitude + 2 ^ double.exponent := by
    change ((double.mantissa + 1 : Nat) : ℚ) * 2 ^ double.exponent = _
    rw [magnitude]
    push_cast
    ring
  rcases other.exists_multiple (exponent_le_of_magnitude_le lt.le) with ⟨count, multiple⟩
  have counts : double.mantissa < count := by
    rw [multiple, magnitude] at lt
    exact_mod_cast lt_of_mul_lt_mul_right lt power.le
  have reached : next.magnitude ≤ other.magnitude := by
    rw [multiple]
    exact mul_le_mul_of_nonneg_right (by exact_mod_cast counts) power.le
  refine ⟨next, by linarith, lt_of_le_of_ne reached fun same => ?_⟩
  have mantissa : double.mantissa + 1 = other.mantissa := mantissa_eq_of_magnitude_eq same
  omega

theorem value_eq_magnitude (nonneg : 0 ≤ double.value) : double.value = double.magnitude := by
  rw [← double.abs_value, abs_of_nonneg nonneg]

theorem exists_value_between_of_nonneg (nonneg : 0 ≤ double.value) (lt : double.value < other.value)
    (even : double.mantissa % 2 = 0) (otherEven : other.mantissa % 2 = 0) :
    exists between : Double, double.value < between.value ∧ between.value < other.value := by
  have own := value_eq_magnitude nonneg
  have others := value_eq_magnitude (nonneg.trans lt.le)
  rw [own, others] at lt ⊢
  rcases exists_between lt even otherEven with ⟨between, above, below⟩
  exact ⟨between.unsigned, above, below⟩

/-- On which sides of zero the two doubles lie does not matter. -/
theorem exists_value_between (lt : double.value < other.value) (even : double.mantissa % 2 = 0)
    (otherEven : other.mantissa % 2 = 0) :
    exists between : Double, double.value < between.value ∧ between.value < other.value := by
  by_cases nonneg : 0 ≤ double.value
  · exact exists_value_between_of_nonneg nonneg lt even otherEven
  · by_cases positive : 0 < other.value
    · exact ⟨zero, by rw [zero_value]; exact lt_of_not_ge nonneg, by rw [zero_value]; exact positive⟩
    · have nonneg : 0 ≤ other.opposite.value := by
        rw [other.opposite_value]
        linarith
      have mirrored : other.opposite.value < double.opposite.value := by
        rw [other.opposite_value, double.opposite_value]
        exact neg_lt_neg lt
      rcases exists_value_between_of_nonneg nonneg mirrored otherEven even with ⟨between, above, below⟩
      rw [other.opposite_value] at above
      rw [double.opposite_value] at below
      refine ⟨between.opposite, ?_, ?_⟩ <;> rw [between.opposite_value] <;> linarith

/-- Every number with at most 53 binary digits in the range of exponents has a normal form. -/
theorem exists_of_digits {mantissa : Nat} {exponent : Int} (short : mantissa < 2 ^ 53)
    (range : -1074 ≤ exponent ∧ exponent ≤ 971) :
    exists double : Double, double.negative = false ∧ double.magnitude = mantissa * 2 ^ exponent := by
  induction steps : (exponent + 1074).toNat generalizing mantissa exponent with
  | zero => exact ⟨⟨false, mantissa, exponent, short, range, .inr (by omega)⟩, rfl, rfl⟩
  | succ steps inductionHypothesis =>
      by_cases full : 2 ^ 52 ≤ mantissa
      · exact ⟨⟨false, mantissa, exponent, short, range, .inl full⟩, rfl, rfl⟩
      · rcases inductionHypothesis (by omega : 2 * mantissa < 2 ^ 53)
          (by omega : -1074 ≤ exponent - 1 ∧ exponent - 1 ≤ 971) (by omega) with
          ⟨double, unsigned, magnitude⟩
        refine ⟨double, unsigned, ?_⟩
        rw [magnitude, zpow_sub_one₀ two_ne_zero]
        push_cast
        ring

end Double

/-! ## The nearest one -/

/-- A double that no other is nearer to a quantity than.  Of two equally near ones it is the one with the
even mantissa. -/
structure IsNearest (quantity : ℚ) (double : Double) : Prop where
  closest : forall other : Double, |quantity - double.value| ≤ |quantity - other.value|
  even : forall other : Double, other.value ≠ double.value ->
    |quantity - other.value| = |quantity - double.value| -> double.mantissa % 2 = 0

namespace IsNearest

open Double (zero zero_value)

variable {quantity : ℚ} {double other : Double}

/-- Rounding is the same on both sides of zero. -/
theorem opposite (nearest : IsNearest quantity double) : IsNearest (-quantity) double.opposite := by
  have mirrored (other : Double) : |-quantity - other.value| = |quantity - other.opposite.value| := by
    rw [other.opposite_value, ← abs_neg]
    congr 1
    ring
  have own : |-quantity - double.opposite.value| = |quantity - double.value| := by
    rw [mirrored, double.opposite.opposite_value, double.opposite_value, neg_neg]
  constructor
  · intro other
    rw [own, mirrored]
    exact nearest.closest other.opposite
  · intro other differs tie
    rw [own, mirrored] at tie
    refine nearest.even other.opposite (fun same => differs ?_) tie
    rw [other.opposite_value] at same
    rw [double.opposite_value, ← same, neg_neg]

/-- A double is nearest to itself. -/
theorem of_value (double : Double) : IsNearest double.value double where
  closest other := by
    rw [sub_self, abs_zero]
    exact abs_nonneg _
  even other differs tie := by
    rw [sub_self, abs_zero, abs_eq_zero, sub_eq_zero] at tie
    exact absurd tie.symm differs

/-- For a quantity that is not negative it is enough to look at magnitudes. -/
theorem of_magnitudes (nonneg : 0 ≤ quantity) (unsigned : double.negative = false)
    (closest : forall other : Double, |quantity - double.magnitude| ≤ |quantity - other.magnitude|)
    (even : forall other : Double, other.magnitude ≠ double.magnitude ->
      |quantity - other.magnitude| = |quantity - double.magnitude| -> double.mantissa % 2 = 0) :
    IsNearest quantity double := by
  have value : double.value = double.magnitude := by rw [Double.value, unsigned]; rfl
  have nearer (other : Double) : |quantity - other.magnitude| ≤ |quantity - other.value| := by
    have magnitude := other.magnitude_nonneg
    rw [Double.value, signed]
    split
    · rw [sub_neg_eq_add, abs_of_nonneg (add_nonneg nonneg magnitude), abs_le]
      constructor <;> linarith
    · exact le_refl _
  constructor
  · intro other
    rw [value]
    exact (closest other).trans (nearer other)
  · intro other differs tie
    rw [value] at differs tie
    have magnitudes : |quantity - other.magnitude| = |quantity - double.magnitude| :=
      le_antisymm ((nearer other).trans tie.le) (closest other)
    refine even other (fun same => differs ?_) magnitudes
    -- Of two opposite numbers the negative one is as near only if both are zero, or the quantity is.
    have atZero := closest zero
    rw [show zero.magnitude = 0 from zero_value, sub_zero, abs_of_nonneg nonneg] at atZero
    rw [Double.value, signed, same] at tie ⊢
    split at tie
    · rename_i negative
      have magnitude := double.magnitude_nonneg
      rw [sub_neg_eq_add, abs_of_nonneg (add_nonneg nonneg magnitude)] at tie
      rw [if_pos negative]
      linarith
    · rename_i positive
      rw [if_neg positive]

/-- What lies below half of the least double is nearest to zero. -/
theorem zero_of_lt (nonneg : 0 ≤ quantity) (tiny : quantity < 2 ^ (-1075 : Int)) :
    IsNearest quantity zero := by
  have zeroMagnitude : zero.magnitude = 0 := zero_value
  have half : (2 : ℚ) ^ (-1074 : Int) = 2 ^ (-1075 : Int) * 2 := zpow_add_one₀ two_ne_zero (-1075)
  have farther (other : Double) (differs : other.magnitude ≠ 0) : quantity < |quantity - other.magnitude| := by
    rcases other.exists_multiple other.exponent_range.1 with ⟨count, multiple⟩
    have counts : (1 : ℚ) ≤ count := by
      have positive : count ≠ 0 := by
        rintro rfl
        exact differs (by rw [multiple, Nat.cast_zero, zero_mul])
      exact_mod_cast Nat.one_le_iff_ne_zero.mpr positive
    have least : 1 * 2 ^ (-1074 : Int) ≤ other.magnitude := by
      rw [multiple]
      exact mul_le_mul_of_nonneg_right counts (by positivity)
    rw [half] at least
    generalize (2 : ℚ) ^ (-1075 : Int) = unit at *
    rw [abs_sub_comm, abs_of_nonneg (by linarith)]
    linarith
  apply of_magnitudes nonneg rfl
  · intro other
    rw [zeroMagnitude, sub_zero, abs_of_nonneg nonneg]
    by_cases isZero : other.magnitude = 0
    · rw [isZero, sub_zero, abs_of_nonneg nonneg]
    · exact (farther other isZero).le
  · exact fun _ _ _ => rfl

/-- A quantity not below a double is not rounded to one below it. -/
theorem le_value (nearest : IsNearest quantity double) (le : other.value ≤ quantity) :
    other.value ≤ double.value := by
  have closest := nearest.closest other
  rw [abs_of_nonneg (sub_nonneg.mpr le)] at closest
  have below := (abs_le.mp closest).2
  linarith

/-- A quantity not above a double is not rounded to one above it. -/
theorem value_le (nearest : IsNearest quantity double) (le : quantity ≤ other.value) :
    double.value ≤ other.value := by
  have mirrored : other.opposite.value ≤ double.opposite.value := by
    apply nearest.opposite.le_value
    rw [other.opposite_value]
    exact neg_le_neg le
  rw [other.opposite_value, double.opposite_value] at mirrored
  exact neg_le_neg_iff.mp mirrored

/-- What lies strictly between two equally near numbers is nearer. -/
theorem abs_lt_of_between {quantity first between second : ℚ} (above : first < between)
    (below : between < second) (tie : |quantity - first| = |quantity - second|) :
    |quantity - between| < |quantity - first| := by
  have middle : quantity - first = second - quantity := by
    rcases abs_eq_abs.mp tie with same | mirrored
    · linarith
    · linarith
  rw [abs_of_pos (by linarith : 0 < quantity - first), abs_lt]
  constructor <;> linarith

/-- The nearest double is one number. -/
theorem value_unique (nearest : IsNearest quantity double) (otherNearest : IsNearest quantity other) :
    double.value = other.value := by
  by_contra differs
  have tie : |quantity - double.value| = |quantity - other.value| :=
    le_antisymm (nearest.closest other) (otherNearest.closest double)
  have even := nearest.even other (Ne.symm differs) tie.symm
  have otherEven := otherNearest.even double differs tie
  rcases lt_or_gt_of_ne differs with lt | gt
  · rcases Double.exists_value_between lt even otherEven with ⟨between, above, below⟩
    exact absurd (nearest.closest between) (not_le_of_gt (abs_lt_of_between above below tie))
  · rcases Double.exists_value_between gt otherEven even with ⟨between, above, below⟩
    exact absurd (otherNearest.closest between)
      (not_le_of_gt (abs_lt_of_between above below tie.symm))

end IsNearest

/-! ## Rounding with infinities -/

/-- What a floating-point number stands for; the two zeros stand for the same. -/
inductive Number where
  | notANumber
  | infinite (negative : Bool)
  | finite (value : ℚ)

/-- The middle between the greatest double and the power of two above it. -/
def overflowBound : ℚ :=
  (2 ^ 54 - 1) * 2 ^ 970

theorem one_lt_overflowBound : 1 < overflowBound := by
  have power : (1 : ℚ) ≤ 2 ^ 970 := one_le_pow₀ one_le_two
  unfold overflowBound
  generalize (2 : ℚ) ^ 970 = unit at *
  linarith

/-- The floating-point number to which a quantity is rounded. -/
inductive RoundsTo (quantity : ℚ) : Number -> Prop where
  | finite {double : Double} (small : |quantity| < overflowBound)
      (nearest : IsNearest quantity double) : RoundsTo quantity (.finite double.value)
  | infinite (large : overflowBound ≤ |quantity|) :
      RoundsTo quantity (.infinite (decide (quantity < 0)))

namespace RoundsTo

variable {quantity : ℚ} {number other : Number}

/-- A quantity is rounded to one number. -/
theorem unique (rounds : RoundsTo quantity number) (otherRounds : RoundsTo quantity other) :
    number = other := by
  cases rounds with
  | finite small nearest =>
      cases otherRounds with
      | finite _ otherNearest => rw [nearest.value_unique otherNearest]
      | infinite large => exact absurd large (not_le_of_gt small)
  | infinite large =>
      cases otherRounds with
      | finite small _ => exact absurd large (not_le_of_gt small)
      | infinite _ => rfl

/-- A double is its own rounding. -/
theorem of_value (double : Double) : RoundsTo double.value (.finite double.value) := by
  refine .finite ?_ (IsNearest.of_value double)
  have mantissa : (double.mantissa : ℚ) ≤ 2 ^ 53 - 1 := by
    have lt : ((double.mantissa + 1 : Nat) : ℚ) ≤ (2 ^ 53 : Nat) := by
      exact_mod_cast double.mantissa_lt
    push_cast at lt
    linarith
  have power : (2 : ℚ) ^ double.exponent ≤ 2 ^ (970 : Int) * 2 := by
    rw [← zpow_add_one₀ two_ne_zero]
    exact zpow_le_zpow_right₀ one_le_two double.exponent_range.2
  have unit : (0 : ℚ) < 2 ^ (970 : Int) := by positivity
  calc |double.value| = double.mantissa * 2 ^ double.exponent := double.abs_value
    _ ≤ (2 ^ 53 - 1) * (2 ^ (970 : Int) * 2) :=
        mul_le_mul mantissa power (by positivity) (by norm_num)
    _ < overflowBound := by
        change _ < (2 ^ 54 - 1) * (2 : ℚ) ^ (970 : Int)
        generalize (2 : ℚ) ^ (970 : Int) = unit at *
        linarith

/-- Integers below `2 ^ 53` are doubles. -/
theorem of_int {whole : Int} (small : whole.natAbs < 2 ^ 53) :
    RoundsTo (whole : ℚ) (.finite whole) := by
  rcases Double.exists_of_digits small (by decide : (-1074 : Int) ≤ 0 ∧ (0 : Int) ≤ 971) with
    ⟨double, unsigned, magnitude⟩
  have value : double.value = ((whole.natAbs : Int) : ℚ) := by
    rw [Double.value, unsigned, magnitude, zpow_zero, mul_one]
    exact Int.cast_natCast whole.natAbs
  rcases Int.natAbs_eq whole with positive | negative
  · have same : double.value = (whole : ℚ) := by
      rw [value, ← positive]
    rw [← same]
    exact of_value double
  · have same : double.opposite.value = (whole : ℚ) := by
      rw [double.opposite_value, value, ← Int.cast_neg, ← negative]
    rw [← same]
    exact of_value double.opposite

/-- A quantity as far from zero as a double is not rounded nearer to zero. -/
theorem far (double : Double) (large : double.magnitude ≤ |quantity|) (rounds : RoundsTo quantity number) :
    (exists negative, number = .infinite negative) ∨
      exists value, number = .finite value ∧ double.magnitude ≤ |value| := by
  cases rounds with
  | infinite _ => exact .inl ⟨_, rfl⟩
  | @finite rounded _ nearest =>
      refine .inr ⟨rounded.value, rfl, ?_⟩
      rcases le_abs.mp large with above | below
      · have le : double.unsigned.value ≤ rounded.value := nearest.le_value above
        exact le_abs.mpr (.inl le)
      · have le : rounded.value ≤ double.unsigned.opposite.value := by
          apply nearest.value_le
          rw [Double.opposite_value, Double.unsigned_value]
          exact le_neg.mp below
        rw [Double.opposite_value, Double.unsigned_value] at le
        exact le_abs.mpr (.inr (le_neg.mp le))

end RoundsTo
end Binary64
end QueryFederation
