import QueryFederation.Series.Result

/-!
# Fixtures

A fixture is a snapshot of what one backend answers: the values of labels, the known series, and the
results of queries by their text.
-/

namespace QueryFederation

/-- A snapshot of the answers of one backend. -/
@[ext]
structure Fixture where
  labelValues : NameMap (List String)
  series : List LabelSet
  instant : NameMap QueryResult
  range : NameMap QueryResult
  deriving DecidableEq

namespace Fixture

/-- The snapshot of a backend that knows nothing. -/
def empty : Fixture :=
  ⟨.empty, [], .empty, .empty⟩

instance : Inhabited Fixture :=
  ⟨empty⟩

/-- The values of a label; none for an unknown one. -/
def valuesOfLabel (fixture : Fixture) (label : String) : List String :=
  (fixture.labelValues.get? label).getD []

/-- The result of an instant query; an empty vector for an unknown one. -/
def instantResult (fixture : Fixture) (query : String) : QueryResult :=
  (fixture.instant.get? query).getD (.vector [])

/-- The result of a range query inside the range; an empty matrix for an unknown one. -/
def rangeResult (fixture : Fixture) (query : String) (range : QueryRange) : QueryResult :=
  match fixture.range.get? query with
  | some result => range.trim result
  | none => .matrix []

/-- The series that belong to one of the named metrics, in their order. -/
def matchingSeries (fixture : Fixture) (metrics : List String) : List LabelSet :=
  fixture.series.filter (LabelSet.belongsTo metrics)

end Fixture
end QueryFederation
