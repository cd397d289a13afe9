import QueryFederation.Federation.Operation
import QueryFederation.Statistics.Running

/-!
# Statistics of the calls of a federation

A hook is told the outcome of every call of every member.  The statistics kept here count, for each
member that was called at all, its answers and its errors, its calls by kind of operation, and how long
it took.

A hook is a function on whatever state it feeds.  Several hooks over one state make one hook, which
tells each of them in turn.
-/

namespace QueryFederation

/-- What a hook is told about one call of one member. -/
structure CallRecord where
  index : Nat
  kind : ApiKind
  status : CallStatus
  seconds : Float
  deriving DecidableEq

/-- A hook that feeds a state. -/
abbrev Hook (State : Type) :=
  CallRecord -> State -> State

namespace Hook

/-- The hook that tells several hooks in turn. -/
def combine {State : Type} (hooks : List (Hook State)) : Hook State :=
  fun record state => hooks.foldl (fun state hook => hook record state) state

end Hook

/-- The number of calls by kind. -/
@[ext]
structure KindCounts where
  labelValues : Nat
  query : Nat
  queryRange : Nat
  series : Nat
  deriving DecidableEq, Repr

namespace KindCounts

/-- No calls. -/
def zero : KindCounts :=
  ⟨0, 0, 0, 0⟩

/-- The number of calls of one kind. -/
def get (counts : KindCounts) : ApiKind -> Nat
  | .labelValues => counts.labelValues
  | .query => counts.query
  | .queryRange => counts.queryRange
  | .series => counts.series

/-- Count one more call. -/
def increment (counts : KindCounts) : ApiKind -> KindCounts
  | .labelValues => { counts with labelValues := counts.labelValues + 1 }
  | .query => { counts with query := counts.query + 1 }
  | .queryRange => { counts with queryRange := counts.queryRange + 1 }
  | .series => { counts with series := counts.series + 1 }

/-- The kinds that were called and how often. -/
def toList (counts : KindCounts) : List (ApiKind × Nat) :=
  (ApiKind.all.map fun kind => (kind, counts.get kind)).filter fun entry => entry.2 != 0

end KindCounts

/-- The statistics of one member. -/
structure MemberStats where
  successes : Nat
  errors : Nat
  latencyMillis : RunningStats Float
  perKind : KindCounts
  deriving DecidableEq

namespace MemberStats

/-- A member that was not called. -/
def zero : MemberStats :=
  ⟨0, 0, .empty, .zero⟩

/-- Count one more call. -/
def record (stats : MemberStats) (call : CallRecord) : MemberStats :=
  { successes := stats.successes + (if call.status = .success then 1 else 0)
    errors := stats.errors + (if call.status = .error then 1 else 0)
    latencyMillis := stats.latencyMillis.push (call.seconds * 1000.0)
    perKind := stats.perKind.increment call.kind }

/-- The number of calls. -/
def calls (stats : MemberStats) : Nat :=
  stats.successes + stats.errors

/-- The share of errors among the calls, in percent. -/
def errorRate (stats : MemberStats) : Float :=
  if stats.calls = 0 then 0.0
  else Float.ofNat stats.errors / Float.ofNat stats.calls * 100.0

end MemberStats

/-- The statistics of the members of a federation. -/
structure CallStats where
  /-- The names of the members, as far as they have one. -/
  names : List String
  /-- The members that were called, in ascending order of their indices. -/
  members : List (Nat × MemberStats)
  deriving DecidableEq

namespace CallStats

/-- No calls yet. -/
def start (names : List String) : CallStats :=
  ⟨names, []⟩

/-- Count a call with the member it belongs to, which gets its place in the order if it is new. -/
def recordAmong (call : CallRecord) : List (Nat × MemberStats) -> List (Nat × MemberStats)
  | [] => [(call.index, MemberStats.zero.record call)]
  | (index, stats) :: rest =>
      if call.index < index then (call.index, MemberStats.zero.record call) :: (index, stats) :: rest
      else if call.index = index then (index, stats.record call) :: rest
      else (index, stats) :: recordAmong call rest

/-- Count one more call. -/
def record (stats : CallStats) (call : CallRecord) : CallStats :=
  { stats with members := recordAmong call stats.members }

/-- The hook that feeds the statistics. -/
def hook : Hook CallStats :=
  fun call stats => stats.record call

/-- Forget all calls. -/
def reset (stats : CallStats) : CallStats :=
  { stats with members := [] }

/-- The name under which a member is reported; one without a name goes by its index. -/
def nameOf (names : List String) (index : Nat) : String :=
  names.getD index (toString index)

/-- The number of calls of all members. -/
def totalCalls (stats : CallStats) : Nat :=
  (stats.members.map fun entry => entry.2.calls).foldr (· + ·) 0

/-- The number of errors of all members. -/
def totalErrors (stats : CallStats) : Nat :=
  (stats.members.map fun entry => entry.2.errors).foldr (· + ·) 0

/-- Two lines about one member. -/
def describeMember (names : List String) (entry : Nat × MemberStats) : String :=
  "[" ++ toString entry.1 ++ "] " ++ nameOf names entry.1 ++ ": ok=" ++ toString entry.2.successes ++
    " err=" ++ toString entry.2.errors ++ " (" ++ Fixed.render 2 entry.2.errorRate ++ "%)\n" ++
    "  latency (ms): " ++ entry.2.latencyMillis.describe ++ "\n"

/-- A report on all members that were called. -/
def describe (stats : CallStats) : String :=
  "=== Backend Call Summary ===\n" ++
    "Total calls: " ++ toString stats.totalCalls ++ " (" ++ toString stats.totalErrors ++
    " errors)\n" ++
    String.join (stats.members.map (describeMember stats.names))

end CallStats
end QueryFederation
