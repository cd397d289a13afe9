import QueryFederation.Series.NameMap

/-!
# Label sets

A series is identified by its label set, a finite map from label names to label values.  One label is
reserved for the name of the metric.  All grouping of series rests on the equality of label sets,
which is equality of the mappings.
-/

namespace QueryFederation

/-- A finite map from label names to label values. -/
abbrev LabelSet :=
  NameMap String

namespace LabelSet

/-- The label that carries the name of the metric. -/
def metricLabel : String :=
  "__name__"

/-- The name of the metric, if the set has one. -/
def metricName? (labels : LabelSet) : Option String :=
  labels.get? metricLabel

/-- Whether the set belongs to one of the named metrics.  No names at all stand for every set. -/
def belongsTo (metrics : List String) (labels : LabelSet) : Bool :=
  metrics.isEmpty ||
    match metricName? labels with
    | some name => metrics.contains name
    | none => false

end LabelSet
end QueryFederation
