import QueryFederation.Fault.Basic
import QueryFederation.Federation.Operation
import QueryFederation.Merge.Results
import QueryFederation.Series.Fixture

/-!
# Requests

A request is one call of one of the four read operations.  All that a federation has to know of it is
how a backend without members of its own answers it, what the answer is when there is nobody to ask,
and how two answers become one.  So the four operations differ in the type of their answers and in
these few functions alone.

No backend of this library evaluates queries.  The time of an instant query and the time range of a
lookup of series are therefore no part of a request; the range of a range query is, because stored
matrices are cut to it.
-/

namespace QueryFederation

/-- A backend with prepared answers.  It may take its time, may fail always, and may pay no attention
to cancellation while it takes its time. -/
structure Mock where
  name : String
  labelValues : List String
  series : List LabelSet
  query : QueryResult
  queryRange : QueryResult
  failure : Option String
  delayMillis : Nat
  ignoresCancellation : Bool

namespace Mock

/-- A backend that answers at once and has no data. -/
def silent (name : String) : Mock :=
  { name := name
    labelValues := []
    series := []
    query := .vector []
    queryRange := .matrix []
    failure := none
    delayMillis := 0
    ignoresCancellation := false }

end Mock

/-- A request for an answer of some type. -/
structure Request (Answer : Type) where
  kind : ApiKind
  ofMock : Mock -> Answer
  ofFixture : Fixture -> Answer
  /-- The answer of a federation without backends. -/
  empty : Answer
  /-- One answer out of two, under an anti-affinity window. -/
  merge : Duration -> Answer -> Answer -> Except Fault Answer

namespace Request

/-- Merge two results; a mismatch of shapes is a fault of the request. -/
def mergeResults (window : Duration) (first second : QueryResult) : Except Fault QueryResult :=
  match Merge.results window first second with
  | .ok merged => .ok merged
  | .error mismatch => .error (.shapeMismatch mismatch.left mismatch.right)

/-- The values of a label. -/
def labelValues (label : String) : Request (List String) :=
  { kind := .labelValues
    ofMock := Mock.labelValues
    ofFixture := fun fixture => fixture.valuesOfLabel label
    empty := []
    merge := fun _ first second => .ok (Merge.labelValues first second) }

/-- The result of an instant query. -/
def query (text : String) : Request QueryResult :=
  { kind := .query
    ofMock := Mock.query
    ofFixture := fun fixture => fixture.instantResult text
    empty := .vector []
    merge := mergeResults }

/-- The result of a range query. -/
def queryRange (text : String) (range : QueryRange) : Request QueryResult :=
  { kind := .queryRange
    ofMock := Mock.queryRange
    ofFixture := fun fixture => fixture.rangeResult text range
    empty := .matrix []
    merge := mergeResults }

/-- The series of the named metrics; no names stand for all. -/
def series (metrics : List String) : Request (List LabelSet) :=
  { kind := .series
    ofMock := Mock.series
    ofFixture := fun fixture => fixture.matchingSeries metrics
    empty := []
    merge := fun _ first second => .ok (Merge.labelSets first second) }

end Request
end QueryFederation
