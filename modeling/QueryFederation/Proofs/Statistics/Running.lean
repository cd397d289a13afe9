import Mathlib.Algebra.BigOperators.Group.List.Basic
import Mathlib.Algebra.Order.BigOperators.Group.List
import Mathlib.Algebra.Order.Field.Rat
import Mathlib.Data.List.Induction
import Mathlib.Order.Bounds.Basic
import Mathlib.Tactic.FieldSimp
import Mathlib.Tactic.Linarith
import Mathlib.Tactic.NormNum
import Mathlib.Tactic.Ring
import QueryFederation.Statistics.Running

/-!
# Running statistics are exact over the rational numbers

The statistics of a stream are kept without its values.  Each new value moves the mean by a fraction of the
distance, and adds to the sum of squares the product of its distances to the old and to the new mean.  Over
the rational numbers, where nothing is rounded, this is what the whole list of values defines: its mean, the
sum of the squared deviations from that mean, and its extremes.  None of these depends on the order in which
the values came.

What the same steps compute in doubles is not claimed here, and nothing is claimed about the deviation, which
is a square root.
-/

namespace QueryFederation
namespace RunningStats

/-! ## Values of any kind -/

section AnyQuantity

variable {Quantity : Type} [Measure Quantity]

theorem ofValues_concat (values : List Quantity) (value : Quantity) :
    ofValues (values ++ [value]) = (ofValues values).push value := by
  rw [ofValues, List.foldl_concat, ofValues]

theorem push_count (stats : RunningStats Quantity) (value : Quantity) :
    (stats.push value).count = stats.count + 1 := by
  unfold push
  dsimp only
  split
  · rename_i isFirst
    exact isFirst.symm
  · rfl

theorem ofValues_count (values : List Quantity) : (ofValues values).count = values.length := by
  induction values using List.reverseRecOn with
  | nil => rfl
  | append_singleton earlier last inductionHypothesis =>
      rw [ofValues_concat, push_count, inductionHypothesis, List.length_append, List.length_singleton]

end AnyQuantity

/-! ## Means and squared deviations of lists -/

/-- The mean of a list of values. -/
def meanOf (values : List Rat) : Rat :=
  values.sum / values.length

/-- The sum of the squared deviations from a center. -/
def squaresAbout (center : Rat) (values : List Rat) : Rat :=
  (values.map fun value => (value - center) ^ 2).sum

theorem squaresAbout_nonneg (center : Rat) (values : List Rat) : 0 ≤ squaresAbout center values := by
  apply List.sum_nonneg
  intro square isSquare
  rcases List.mem_map.mp isSquare with ⟨value, _, rfl⟩
  exact sq_nonneg (value - center)

theorem squaresAbout_concat (center : Rat) (values : List Rat) (value : Rat) :
    squaresAbout center (values ++ [value]) = squaresAbout center values + (value - center) ^ 2 := by
  rw [squaresAbout, List.map_append, List.sum_append, List.map_singleton, List.sum_singleton, squaresAbout]

theorem squaresAbout_expand (center : Rat) (values : List Rat) :
    squaresAbout center values =
      (values.map fun value => value ^ 2).sum - 2 * center * values.sum + values.length * center ^ 2 := by
  induction values with
  | nil => simp [squaresAbout]
  | cons value rest inductionHypothesis =>
      rw [squaresAbout] at inductionHypothesis ⊢
      rw [List.map_cons, List.sum_cons, inductionHypothesis, List.map_cons, List.sum_cons, List.sum_cons,
        List.length_cons, Nat.cast_succ]
      ring

theorem length_mul_meanOf {values : List Rat} (nonempty : values ≠ []) :
    values.length * meanOf values = values.sum := by
  have hasLength : (values.length : Rat) ≠ 0 := Nat.cast_ne_zero.mpr (mt List.length_eq_zero_iff.mp nonempty)
  exact mul_div_cancel₀ values.sum hasLength

/-- Deviations are least about the mean; about another center every value adds the square of the distance. -/
theorem squaresAbout_eq_add {values : List Rat} (nonempty : values ≠ []) (center : Rat) :
    squaresAbout center values =
      squaresAbout (meanOf values) values + values.length * (center - meanOf values) ^ 2 := by
  have total := length_mul_meanOf nonempty
  rw [squaresAbout_expand, squaresAbout_expand (meanOf values), ← total]
  ring

/-- The mean moves towards a new value by the new value's share of the distance. -/
theorem meanOf_concat {values : List Rat} (nonempty : values ≠ []) (value : Rat) :
    meanOf (values ++ [value]) =
      meanOf values + (value - meanOf values) / ((values.length : Rat) + 1) := by
  have hasLength : (values.length : Rat) + 1 ≠ 0 := Nat.cast_add_one_ne_zero values.length
  have total := length_mul_meanOf nonempty
  rw [meanOf, List.sum_append, List.sum_singleton, List.length_append, List.length_singleton,
    Nat.cast_add, Nat.cast_one, ← total]
  field_simp
  ring

/-- A new value adds the product of its distances to the old and to the new mean. -/
theorem squaresAbout_meanOf_concat {values : List Rat} (nonempty : values ≠ []) (value : Rat) :
    squaresAbout (meanOf (values ++ [value])) (values ++ [value]) =
      squaresAbout (meanOf values) values +
        (value - meanOf values) * (value - meanOf (values ++ [value])) := by
  have hasLength : (values.length : Rat) + 1 ≠ 0 := Nat.cast_add_one_ne_zero values.length
  rw [squaresAbout_concat, squaresAbout_eq_add nonempty, meanOf_concat nonempty]
  field_simp
  ring

/-! ## One more value -/

/-- That statistics are those of a list of values. -/
structure Describes (stats : RunningStats Rat) (values : List Rat) : Prop where
  count : stats.count = values.length
  mean : stats.mean = meanOf values
  squares : stats.squares = squaresAbout (meanOf values) values
  least : IsLeast {value | value ∈ values} stats.least
  greatest : IsGreatest {value | value ∈ values} stats.greatest

variable {stats other : RunningStats Rat} {values : List Rat}

/-- A list of values has only one statistics. -/
theorem Describes.unique (describes : stats.Describes values) (alsoDescribes : other.Describes values) :
    stats = other := by
  apply RunningStats.ext
  · exact describes.count.trans alsoDescribes.count.symm
  · exact describes.mean.trans alsoDescribes.mean.symm
  · exact describes.squares.trans alsoDescribes.squares.symm
  · exact describes.least.unique alsoDescribes.least
  · exact describes.greatest.unique alsoDescribes.greatest

/-- Statistics forget the order of the values. -/
theorem Describes.perm {reordered : List Rat} (describes : stats.Describes values)
    (sameValues : reordered.Perm values) : stats.Describes reordered := by
  have sameMean : meanOf reordered = meanOf values := by
    rw [meanOf, sameValues.sum_eq, sameValues.length_eq, meanOf]
  have sameMembers : {value | value ∈ reordered} = {value | value ∈ values} :=
    Set.ext fun value => sameValues.mem_iff
  constructor
  case count => exact describes.count.trans sameValues.length_eq.symm
  case mean => exact describes.mean.trans sameMean.symm
  case squares =>
    rw [describes.squares, sameMean, squaresAbout, squaresAbout]
    exact (sameValues.map _).sum_eq.symm
  case least => exact sameMembers ▸ describes.least
  case greatest => exact sameMembers ▸ describes.greatest

theorem push_first (value : Rat) : (empty.push value : RunningStats Rat).Describes [value] := by
  change Describes ⟨1, value, 0, value, value⟩ [value]
  constructor
  case count => rfl
  case mean => simp [meanOf]
  case squares => simp [squaresAbout, meanOf]
  case least => exact ⟨List.mem_singleton_self value, fun _ isValue => (List.mem_singleton.mp isValue).ge⟩
  case greatest => exact ⟨List.mem_singleton_self value, fun _ isValue => (List.mem_singleton.mp isValue).le⟩

theorem least_eq_min (first second : Rat) : Measure.least first second = min first second := by
  change (if second < first then second else first) = min first second
  rw [min_comm, min_def_lt]

theorem greatest_eq_max (first second : Rat) : Measure.greatest first second = max first second := by
  change (if first < second then second else first) = max first second
  rw [max_def_lt]

theorem push_further (begun : stats.count ≠ 0) (value : Rat) :
    stats.push value =
      { count := stats.count + 1
        mean := stats.mean + (value - stats.mean) / ((stats.count : Rat) + 1)
        squares := stats.squares + (value - stats.mean) *
          (value - (stats.mean + (value - stats.mean) / ((stats.count : Rat) + 1)))
        least := min stats.least value
        greatest := max stats.greatest value } := by
  have notFirst : stats.count + 1 ≠ 1 := fun first => begun (Nat.succ.inj first)
  have newCount : (Measure.ofCount (stats.count + 1) : Rat) = (stats.count : Rat) + 1 :=
    Nat.cast_succ stats.count
  rw [push, if_neg notFirst, least_eq_min, greatest_eq_max, newCount]

theorem members_concat (values : List Rat) (value : Rat) :
    {member | member ∈ values ++ [value]} = insert value {member | member ∈ values} := by
  ext member
  rw [Set.mem_ofPred_eq, List.mem_append, List.mem_singleton, Set.mem_insert_iff, Set.mem_ofPred_eq,
    or_comm]

/-- One more value keeps the statistics those of the list. -/
theorem Describes.push (describes : stats.Describes values) (nonempty : values ≠ []) (value : Rat) :
    (stats.push value).Describes (values ++ [value]) := by
  have begun : stats.count ≠ 0 := describes.count ▸ mt List.length_eq_zero_iff.mp nonempty
  rw [push_further begun]
  constructor
  case count => rw [describes.count, List.length_append, List.length_singleton]
  case mean => rw [describes.mean, describes.count, meanOf_concat nonempty]
  case squares =>
    rw [squaresAbout_meanOf_concat nonempty, meanOf_concat nonempty, describes.squares, describes.mean,
      describes.count]
  case least =>
    rw [members_concat, min_comm]
    exact describes.least.insert value
  case greatest =>
    rw [members_concat, max_comm]
    exact describes.greatest.insert value

theorem Describes.variance_eq (describes : stats.Describes values) :
    stats.variance =
      if values.length < 2 then 0
      else squaresAbout (meanOf values) values / ((values.length : Rat) - 1) := by
  rw [variance, describes.count, describes.squares]
  split
  · rfl
  · rename_i notFewer
    have others : ((values.length - 1 : Nat) : Rat) = (values.length : Rat) - 1 :=
      Nat.cast_pred (by omega)
    exact congrArg (squaresAbout (meanOf values) values / ·) others

/-! ## All values -/

theorem ofValues_describes (nonempty : values ≠ []) : (ofValues values).Describes values := by
  induction values using List.reverseRecOn with
  | nil => exact absurd rfl nonempty
  | append_singleton earlier last inductionHypothesis =>
      rw [ofValues_concat]
      cases earlier with
      | nil => exact push_first last
      | cons first rest =>
          have begun : first :: rest ≠ [] := List.cons_ne_nil first rest
          exact (inductionHypothesis begun).push begun last

/-- The statistics of any values are exact: count, mean, sum of squared deviations and extremes are those of
the list, so is the variance, which is never negative, and the order of the values makes no difference. -/
theorem ofValues_exact (nonempty : values ≠ []) :
    (ofValues values).Describes values ∧
      (ofValues values).variance =
        (if values.length < 2 then 0
          else squaresAbout (meanOf values) values / ((values.length : Rat) - 1)) ∧
      0 ≤ (ofValues values).variance ∧
      forall reordered : List Rat, reordered.Perm values -> ofValues reordered = ofValues values := by
  have describes := ofValues_describes nonempty
  have variance := describes.variance_eq
  refine ⟨describes, variance, ?_, ?_⟩
  · rw [variance]
    split
    · exact le_refl 0
    · rename_i notFewer
      have enough : (2 : Rat) ≤ values.length := Nat.ofNat_le_cast.mpr (Nat.not_lt.mp notFewer)
      exact div_nonneg (squaresAbout_nonneg _ _) (by linarith)
  · intro reordered sameValues
    have reorderedNonempty : reordered ≠ [] := by
      rintro rfl
      exact nonempty sameValues.nil_eq.symm
    exact (ofValues_describes reorderedNonempty).unique (describes.perm sameValues)

/-- Values out of order, two of them equal and one below zero. -/
theorem ofValues_exact_scattered :
    [3, -1, 3, 1] ≠ ([] : List Rat) ∧
      (ofValues [3, -1, 3, 1] : RunningStats Rat).mean = 3 / 2 ∧
      (ofValues [3, -1, 3, 1] : RunningStats Rat).variance = 11 / 3 ∧
      ofValues [-1, 3, 3, 1] = ofValues ([3, -1, 3, 1] : List Rat) := by
  have nonempty : [3, -1, 3, 1] ≠ ([] : List Rat) := List.cons_ne_nil _ _
  rcases ofValues_exact nonempty with ⟨describes, variance, _, sameInAnyOrder⟩
  refine ⟨nonempty, ?_, ?_, sameInAnyOrder _ (List.Perm.swap 3 (-1) [3, 1])⟩
  · rw [describes.mean]
    norm_num [meanOf]
  · rw [variance]
    norm_num [squaresAbout, meanOf]

end RunningStats
end QueryFederation
