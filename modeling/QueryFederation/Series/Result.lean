import QueryFederation.Series.Label
import QueryFederation.Time.Instant

/-!
# Results of queries

A query answers with one of four shapes: a single sample, an instant vector with one sample for each
series, a range matrix with a list of samples for each series, or a text.

Timestamps of samples are 64-bit counts of milliseconds, and values are doubles.  A value is carried
as it came: this module does no arithmetic on it, and two values are the same when their bits are.
-/

namespace QueryFederation

/-- Milliseconds since the beginning of 1970. -/
abbrev Timestamp64 :=
  Int64

/-- A measured value and when it was measured. -/
@[ext]
structure Sample where
  timestamp : Timestamp64
  value : Float
  deriving DecidableEq

/-- One series of an instant vector. -/
@[ext]
structure InstantSample where
  metric : LabelSet
  sample : Sample
  deriving DecidableEq

/-- One series of a range matrix. -/
@[ext]
structure SampleStream where
  metric : LabelSet
  values : List Sample
  deriving DecidableEq

/-- A text and the time it belongs to. -/
@[ext]
structure StringSample where
  timestamp : Timestamp64
  value : String
  deriving DecidableEq

/-- The four shapes of a result. -/
inductive Shape where
  | scalar
  | vector
  | matrix
  | string
  deriving DecidableEq, Repr

namespace Shape

/-- The name of a shape, in stored documents and in messages. -/
def name : Shape -> String
  | scalar => "scalar"
  | vector => "vector"
  | matrix => "matrix"
  | string => "string"

/-- All shapes. -/
def all : List Shape :=
  [scalar, vector, matrix, string]

/-- The shape with a given name. -/
def ofName? (text : String) : Option Shape :=
  all.find? (fun shape => shape.name == text)

end Shape

/-- The answer to a query. -/
inductive QueryResult where
  | scalar (sample : Sample)
  | vector (series : List InstantSample)
  | matrix (series : List SampleStream)
  | string (sample : StringSample)
  deriving DecidableEq

namespace QueryResult

instance : Inhabited QueryResult :=
  ⟨vector []⟩

/-- The shape of a result. -/
def shape : QueryResult -> Shape
  | scalar _ => .scalar
  | vector _ => .vector
  | matrix _ => .matrix
  | string _ => .string

/-- The number of series that a result carries; a scalar and a text count as one. -/
def seriesCount : QueryResult -> Nat
  | scalar _ => 1
  | vector series => series.length
  | matrix series => series.length
  | string _ => 1

end QueryResult

/-- The time range of a range query and the step at which it is evaluated. -/
@[ext]
structure QueryRange where
  start : Instant
  stop : Instant
  step : Duration
  deriving DecidableEq

namespace QueryRange

/-- Whether a sample lies in the range, both ends included.  The comparison is at the resolution of
sample timestamps. -/
def contains (range : QueryRange) (timestamp : Timestamp64) : Bool :=
  decide (range.start.millis ≤ timestamp.toInt ∧ timestamp.toInt ≤ range.stop.millis)

/-- The part of a result that lies in the range.  Series left without a sample disappear; results
other than matrices have no extent in time and stay as they are. -/
def trim (range : QueryRange) : QueryResult -> QueryResult
  | .matrix series =>
      .matrix ((series.map fun stream =>
        { stream with values := stream.values.filter fun sample => range.contains sample.timestamp
        }).filter fun stream => !stream.values.isEmpty)
  | other => other

end QueryRange
end QueryFederation
