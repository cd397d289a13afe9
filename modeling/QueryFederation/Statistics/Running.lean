import QueryFederation.Number.Fixed

/-!
# Statistics of a stream of values

Count, mean, variance and extremes of values that come one by one, none of which is kept.  The mean is
moved towards each new value by a fraction of the distance, and the sum of squared deviations grows
by the product of the distances to the old and to the new mean.

The arithmetic is a parameter.  Reports use doubles; over the rational numbers the same definitions
are exact, so what they compute can be stated without any rounding.
-/

namespace QueryFederation

/-- The arithmetic that the statistics need. -/
class Measure (Quantity : Type) extends Add Quantity, Sub Quantity, Mul Quantity, Div Quantity where
  ofCount : Nat -> Quantity
  least : Quantity -> Quantity -> Quantity
  greatest : Quantity -> Quantity -> Quantity

namespace Measure

/-- The smaller of two doubles.  What is no number is passed over, and of two equal ones the first is
taken. -/
def leastFloat (first second : Float) : Float :=
  if first.isNaN then second else if second < first then second else first

/-- The greater of two doubles, by the same rules. -/
def greatestFloat (first second : Float) : Float :=
  if first.isNaN then second else if first < second then second else first

instance : Measure Float where
  ofCount := Float.ofNat
  least := leastFloat
  greatest := greatestFloat

instance : Measure Rat where
  ofCount := fun count => (count : Rat)
  least := fun first second => if second < first then second else first
  greatest := fun first second => if first < second then second else first

end Measure

/-- The statistics of the values so far.  Without values all of it is zero. -/
@[ext]
structure RunningStats (Quantity : Type) where
  count : Nat
  mean : Quantity
  /-- The sum of the squared deviations from the mean. -/
  squares : Quantity
  least : Quantity
  greatest : Quantity
  deriving DecidableEq, Repr

namespace RunningStats

variable {Quantity : Type} [Measure Quantity]

/-- No values yet. -/
def empty : RunningStats Quantity :=
  ⟨0, Measure.ofCount 0, Measure.ofCount 0, Measure.ofCount 0, Measure.ofCount 0⟩

/-- Take one more value. -/
def push (stats : RunningStats Quantity) (value : Quantity) : RunningStats Quantity :=
  let count := stats.count + 1
  if count = 1 then ⟨1, value, Measure.ofCount 0, value, value⟩
  else
    let mean := stats.mean + (value - stats.mean) / Measure.ofCount count
    { count := count
      mean := mean
      squares := stats.squares + (value - stats.mean) * (value - mean)
      least := Measure.least stats.least value
      greatest := Measure.greatest stats.greatest value }

/-- The statistics of a list of values. -/
def ofValues (values : List Quantity) : RunningStats Quantity :=
  values.foldl push empty

/-- The variance of a sample; zero when there are fewer than two values. -/
def variance (stats : RunningStats Quantity) : Quantity :=
  if stats.count < 2 then Measure.ofCount 0
  else stats.squares / Measure.ofCount (stats.count - 1)

/-- The standard deviation of a sample. -/
def deviation (stats : RunningStats Float) : Float :=
  stats.variance.sqrt

/-- One line with extremes, mean, deviation and count. -/
def describe (stats : RunningStats Float) : String :=
  if stats.count = 0 then "N/A"
  else
    "min=" ++ Fixed.render 3 stats.least ++ ", max=" ++ Fixed.render 3 stats.greatest ++
      ", mean=" ++ Fixed.render 3 stats.mean ++ ", std=" ++ Fixed.render 3 stats.deviation ++
      " (n=" ++ toString stats.count ++ ")"

end RunningStats
end QueryFederation
