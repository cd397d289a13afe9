import QueryFederation.Federation.Course
import QueryFederation.Statistics.Measurement

/-!
# Feeding hooks from calls

The hook of a federation is fed with the observations of a call that belong to it, in their order.  A
call begins at time zero of its virtual clock, so the moment of an observation is also the latency of
the member.
-/

namespace QueryFederation

namespace Observation

/-- What a hook is told. -/
def record (observation : Observation) : CallRecord :=
  { index := observation.index
    kind := observation.kind
    status := observation.status
    seconds := Float.ofNat observation.moment.millis / 1000.0 }

end Observation

namespace Hook

/-- Feed a hook with those observations that belong to a federation. -/
def feed {State : Type} (hook : Hook State) (place : Backend.Place)
    (observations : List Observation) (state : State) : State :=
  (observations.filter fun observation => observation.place == place).foldl
    (fun state observation => hook observation.record state) state

end Hook
end QueryFederation
