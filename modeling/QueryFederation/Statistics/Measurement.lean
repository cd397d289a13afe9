import QueryFederation.Series.Label
import QueryFederation.Statistics.Calls

/-!
# Measurements for a monitoring system

Each call of a member is exported as two measurements with the same labels: one more call, and how
long it took.
-/

namespace QueryFederation

/-- A measurement under a name and labels. -/
inductive Measurement where
  /-- A counter grows. -/
  | counter (name : String) (labels : LabelSet) (increment : Nat)
  /-- A value is added to a distribution. -/
  | histogram (name : String) (labels : LabelSet) (value : Float)
  deriving DecidableEq

namespace Measurement

/-- The labels of a call: the member, the kind of operation and the outcome. -/
def labelsOf (names : List String) (call : CallRecord) : LabelSet :=
  NameMap.ofPairs [("backend", CallStats.nameOf names call.index), ("api", call.kind.name),
    ("status", call.status.name)]

/-- The measurements of one call. -/
def ofCall (names : List String) (call : CallRecord) : List Measurement :=
  [counter "promfed_backend_requests_total" (labelsOf names call) 1,
    histogram "promfed_backend_request_duration_seconds" (labelsOf names call) call.seconds]

/-- The hook that exports calls to a list of measurements. -/
def hook (names : List String) : Hook (List Measurement) :=
  fun call measurements => measurements ++ ofCall names call

end Measurement
end QueryFederation
