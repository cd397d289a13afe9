import QueryFederation.Merge.Labels
import QueryFederation.Merge.Samples

/-!
# Merging query results

Two results can be merged when they have the same shape.  Of two scalars or two texts the first one
is taken.  Vectors and matrices are united by label set in order of first occurrence; where both
hold a series, a vector keeps the first sample, and a matrix merges the samples.

A repetition within one input is treated as if it had come from a further input, except that a
vector's first input is kept as it is, and that a series repeated in a matrix's first input receives
later samples at its last occurrence.
-/

namespace QueryFederation
namespace Merge

/-- Two shapes that cannot be merged. -/
structure Mismatch where
  left : Shape
  right : Shape
  deriving DecidableEq, Repr

/-- The series of a vector whose label set was not met before. -/
def unmetSeries (met : List LabelSet) : List InstantSample -> List InstantSample
  | [] => []
  | series :: rest =>
      if series.metric ∈ met then unmetSeries met rest
      else series :: unmetSeries (series.metric :: met) rest

/-- Merge two vectors. -/
def vectors (first second : List InstantSample) : List InstantSample :=
  first ++ unmetSeries (first.map InstantSample.metric) second

/-- Merge samples into the last stream of a label set; `none` when no stream has it. -/
def absorb? (window : Int) (metric : LabelSet) (values : List Sample) :
    List SampleStream -> Option (List SampleStream)
  | [] => none
  | stream :: rest =>
      match absorb? window metric values rest with
      | some absorbed => some (stream :: absorbed)
      | none =>
          if stream.metric = metric then
            some ({ stream with values := samplesWithin window stream.values values } :: rest)
          else none

/-- Merge one stream into a matrix; a new label set goes to the end. -/
def addStream (window : Int) (merged : List SampleStream) (stream : SampleStream) :
    List SampleStream :=
  (absorb? window stream.metric stream.values merged).getD (merged ++ [stream])

/-- Merge two matrices. -/
def matrices (window : Int) (first second : List SampleStream) : List SampleStream :=
  second.foldl (addStream window) first

/-- Merge two results under an anti-affinity window. -/
def results (window : Duration) : QueryResult -> QueryResult -> Except Mismatch QueryResult
  | .scalar first, .scalar _ => .ok (.scalar first)
  | .string first, .string _ => .ok (.string first)
  | .vector first, .vector second => .ok (.vector (vectors first second))
  | .matrix first, .matrix second => .ok (.matrix (matrices (windowMillis window) first second))
  | first, second => .error ⟨first.shape, second.shape⟩

end Merge
end QueryFederation
