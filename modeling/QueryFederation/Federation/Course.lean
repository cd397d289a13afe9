import QueryFederation.Federation.Backend
import QueryFederation.Federation.Collection

/-!
# The course of a call

A federation asks all of its members at once.  For each member there is a unit of work that starts a
request to the member, waits for it, reports to the hook, and delivers the outcome; meanwhile the
federation collects.  A unit that learns of a cancellation abandons its request.  When a call of a
federation ends, by an answer or by a fault, it cancels what its units are still doing.

The course of a call is determined: a race is decided by the order of moments.  Two functions describe
it.  `answer` says how and when a call ends.  `trace` says what could be seen meanwhile: what the hooks
were told and which mocks were reached.  The trace of a member depends on when the call of its
federation ends, because that is when the member is cancelled at the latest; the answer of the
federation in turn depends only on the answers of the members.

The start of a unit comes one round after the start of the call, and the start of its request one
round after that.  A request that is abandoned before it starts reaches nobody.
-/

namespace QueryFederation

/-- How a request to one backend ends. -/
inductive Ending (Answer : Type) where
  | returned (outcome : Except Fault Answer)
  /-- The task that ran the request broke down. -/
  | crashed (message : String)

namespace Ending

/-- The outcome as a unit reports it.  A breakdown becomes a fault of the backend. -/
def outcome {Answer : Type} (index : Nat) : Ending Answer -> Except Fault Answer
  | returned outcome => outcome
  | crashed message => .error (.backend (.brokeDown index message))

end Ending

/-- How and when a request to one backend ends. -/
structure Answered (Answer : Type) where
  moment : Moment
  ending : Ending Answer
  /-- The number of merges that the backend itself tried for this request. -/
  merges : Nat

namespace Mock

variable {Answer : Type}

/-- The outcome of a call that is not cancelled. -/
def outcome (request : Request Answer) (mock : Mock) : Except Fault Answer :=
  match mock.failure with
  | some message => .error (.backend (.named mock.name message))
  | none => .ok (request.ofMock mock)

/-- When a call that is not cancelled ends. -/
def finish (mock : Mock) (start : Moment) : Moment :=
  if mock.delayMillis = 0 then start else Moment.ofTimer mock.delayMillis

/-- The cancellation that a mock yields to, if there is one.  Only a mock that takes its time pays
attention to cancellation. -/
def yieldsTo? (mock : Mock) (cancel : Option Moment) : Option Moment :=
  if mock.delayMillis = 0 ∨ mock.ignoresCancellation = true then none
  else cancelledBefore? cancel (Moment.ofTimer mock.delayMillis)

/-- The call of a mock. -/
def answer (request : Request Answer) (cancel : Option Moment) (start : Moment) (mock : Mock) :
    Answered Answer :=
  match mock.yieldsTo? cancel with
  | some cancelled => ⟨Moment.later cancelled start, .returned (.error .cancelled), 0⟩
  | none => ⟨mock.finish start, .returned (mock.outcome request), 0⟩

end Mock

namespace Fixture

/-- The call of a snapshot, which answers at once unless it is cancelled already. -/
def answer {Answer : Type} (request : Request Answer) (cancel : Option Moment) (start : Moment)
    (fixture : Fixture) : Answered Answer :=
  match cancelledBefore? cancel start with
  | some _ => ⟨start, .returned (.error .cancelled), 0⟩
  | none => ⟨start, .returned (.ok (request.ofFixture fixture)), 0⟩

end Fixture

/-- What the unit of one member delivers: the outcome of the request, or a cancellation that comes
before the request has ended.  `start` is when the call of the federation begins. -/
def unitDelivery {Answer : Type} (cancel : Option Moment) (start : Moment) (index : Nat)
    (answered : Answered Answer) : Delivery Answer :=
  match cancelledBefore? cancel answered.moment.next with
  | some cancelled => ⟨Moment.later cancelled.next start.next, .error .cancelled⟩
  | none => ⟨answered.moment.next, answered.ending.outcome index⟩

namespace Backend

variable {Answer : Type}

mutual

/-- How a call of a backend ends. -/
def answer (request : Request Answer) (cancel : Option Moment) (collector : Collector)
    (start : Moment) : Backend -> Answered Answer
  | .mock scripted => scripted.answer request cancel start
  | .fixture _ snapshot => snapshot.answer request cancel start
  | .crashing message => ⟨start, .crashed message, 0⟩
  | .federation settings members =>
      let conclusion :=
        Delivery.collect (fun _ => request.merge settings.window) request.empty collector cancel start
          (deliveries request cancel start 0 members)
      ⟨conclusion.moment, .returned conclusion.outcome, conclusion.merges⟩

/-- What the units of members deliver, from an index on. -/
def deliveries (request : Request Answer) (cancel : Option Moment) (start : Moment) (index : Nat) :
    List Backend -> List (Delivery Answer)
  | [] => []
  | member :: members =>
      unitDelivery cancel start index (answer request cancel .unit start.next.next member) ::
        deliveries request cancel start (index + 1) members

end

end Backend

/-- What a hook is told about one member of its federation. -/
structure Observation where
  /-- The federation that the hook belongs to. -/
  place : Backend.Place
  index : Nat
  kind : ApiKind
  status : CallStatus
  moment : Moment
  deriving DecidableEq, Repr

/-- What can be seen of a call. -/
structure Trace where
  observations : List Observation
  /-- The mocks that were reached. -/
  reached : List Backend.Place
  /-- The mocks that noticed the cancellation of a call they were reached by. -/
  yielded : List Backend.Place

namespace Trace

/-- Nothing can be seen. -/
def empty : Trace :=
  ⟨[], [], []⟩

/-- What can be seen of two parts of a call together. -/
def append (first second : Trace) : Trace :=
  ⟨first.observations ++ second.observations, first.reached ++ second.reached,
    first.yielded ++ second.yielded⟩

end Trace

/-- What the hook is told about a member.  The outcome that the unit delivers counts if it comes before
the end of the call; a unit that is still at work then is cancelled and reports an error. -/
def observe {Answer : Type} (place : Backend.Place) (index : Nat) (kind : ApiKind)
    (start stop : Moment) (delivery : Delivery Answer) : Observation :=
  if delivery.moment.isBefore stop then
    ⟨place, index, kind, CallStatus.ofOutcome delivery.outcome, delivery.moment⟩
  else ⟨place, index, kind, .error, Moment.later stop.next start.next⟩

namespace Backend

variable {Answer : Type}

mutual

/-- What can be seen of a call of a backend.  A unit abandons its request before the backend learns
of a cancellation, so only a mock that is called directly can yield to one. -/
def trace (request : Request Answer) (cancel : Option Moment) (collector : Collector)
    (start : Moment) (place : Place) : Backend -> Trace
  | .mock scripted =>
      ⟨[], [place],
        if collector = .caller ∧ (scripted.yieldsTo? cancel).isSome then [place] else []⟩
  | .fixture _ _ => .empty
  | .crashing _ => .empty
  | .federation settings members =>
      let stop := (answer request cancel collector start (federation settings members)).moment
      traceOfMembers request cancel settings.isObserved start stop place 0 members

/-- What can be seen of the members of a federation, from an index on, and of its units.  `stop` is
when the call of the federation ends. -/
def traceOfMembers (request : Request Answer) (cancel : Option Moment) (isObserved : Bool)
    (start stop : Moment) (place : Place) (index : Nat) : List Backend -> Trace
  | [] => .empty
  | member :: members =>
      let delivery :=
        unitDelivery cancel start index (answer request cancel .unit start.next.next member)
      let own : Trace :=
        ⟨if isObserved then [observe place index request.kind start stop delivery] else [], [], []⟩
      let within :=
        if start.next.isBefore stop then
          trace request (some stop) .unit start.next.next (place ++ [index]) member
        else .empty
      (own.append within).append
        (traceOfMembers request cancel isObserved start stop place (index + 1) members)

end

/-- How a call by a caller ends. -/
def call (request : Request Answer) (cancel : Option Cancellation) (backend : Backend) :
    Answered Answer :=
  backend.answer request (cancel.map Cancellation.moment) .caller Moment.callStart

/-- What can be seen of a call by a caller. -/
def traceOfCall (request : Request Answer) (cancel : Option Cancellation) (backend : Backend) :
    Trace :=
  backend.trace request (cancel.map Cancellation.moment) .caller Moment.callStart []

end Backend
end QueryFederation
