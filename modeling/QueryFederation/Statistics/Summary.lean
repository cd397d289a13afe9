import QueryFederation.Statistics.Calls

/-!
# Summaries of the calls of a federation

What is reported of each member that was called: under which name it goes, how many of its calls were answered
and how many failed, how long they took, and how often each kind of operation was called.
-/

namespace QueryFederation

/-- What is reported of one member. -/
structure MemberSummary where
  index : Nat
  name : String
  successes : Nat
  errors : Nat
  latencyMillis : RunningStats Float
  /-- The kinds that were called and how often. -/
  perKind : List (ApiKind × Nat)
  deriving DecidableEq

namespace CallStats

/-- The report on all members that were called. -/
def summary (stats : CallStats) : List MemberSummary :=
  stats.members.map fun entry =>
    { index := entry.1
      name := nameOf stats.names entry.1
      successes := entry.2.successes
      errors := entry.2.errors
      latencyMillis := entry.2.latencyMillis
      perKind := entry.2.perKind.toList }

end CallStats
end QueryFederation
