import QueryFederation.Fault.Basic
import QueryFederation.Federation.Moment

/-!
# Collecting the answers of a fan-out

Every backend that was asked delivers one outcome, at a moment of its own.  The outcomes are taken in
the order of the backends, not in that of their delivery: whoever collects waits for the first one,
then for the second one, and so on.  Answers are merged from left to right, and of the faults the
last one is kept.

The collection ends in one of three ways.  A cancellation that comes before an outcome is taken ends
it at once.  A merge that fails ends it with its fault.  Otherwise it ends when all outcomes are taken:
with the merged answer if there was one, and with a total failure if there were only faults.
-/

namespace QueryFederation

/-- The outcome of one backend and when it is delivered. -/
structure Delivery (Answer : Type) where
  moment : Moment
  outcome : Except Fault Answer

/-- Who collects: the caller, who is woken when nothing more can run, or a unit of work, which is
woken in the next round. -/
inductive Collector where
  | caller
  | unit
  deriving DecidableEq, Repr

namespace Collector

/-- The moment at which a collector learns of a delivery. -/
def wakes : Collector -> Moment -> Moment
  | caller, delivered => delivered.settle
  | unit, delivered => delivered.next

end Collector

/-- What has been collected so far. -/
structure Progress (Answer : Type) where
  /-- When the last outcome was taken. -/
  moment : Moment
  merged : Option Answer
  lastFault : Option Fault
  /-- The number of merges that were tried. -/
  merges : Nat

/-- How a collection ends. -/
structure Conclusion (Answer : Type) where
  moment : Moment
  outcome : Except Fault Answer
  merges : Nat

/-- The cancellation of a call, if it comes before a moment. -/
def cancelledBefore? (cancel : Option Moment) (moment : Moment) : Option Moment :=
  cancel.filter (fun cancelled => cancelled.isBefore moment)

namespace Progress

variable {Answer : Type}

/-- Nothing has been collected. -/
def start (moment : Moment) : Progress Answer :=
  ⟨moment, none, none, 0⟩

/-- When an outcome is taken: at once if it is there already, and otherwise when the collector wakes
on its delivery. -/
def takenAt (progress : Progress Answer) (collector : Collector) (delivered : Moment) : Moment :=
  if progress.moment.isBefore delivered then collector.wakes delivered else progress.moment

/-- Take an answer, at a moment.  The merge function is told how many merges came before. -/
def takeAnswer (merge : Nat -> Answer -> Answer -> Except Fault Answer) (progress : Progress Answer)
    (moment : Moment) (answer : Answer) : Except (Conclusion Answer) (Progress Answer) :=
  match progress.merged with
  | none => .ok { progress with moment := moment, merged := some answer }
  | some merged =>
      match merge progress.merges merged answer with
      | .ok merged =>
          .ok { progress with
            moment := moment, merged := some merged, merges := progress.merges + 1 }
      | .error fault => .error ⟨moment, .error fault, progress.merges + 1⟩

/-- The end of a collection by cancellation, which may have come before the collection began. -/
def abandon (progress : Progress Answer) (cancelled : Moment) : Conclusion Answer :=
  ⟨Moment.later cancelled progress.moment, .error .cancelled, progress.merges⟩

/-- Take one delivery, unless the call is cancelled before. -/
def take (merge : Nat -> Answer -> Answer -> Except Fault Answer) (collector : Collector)
    (cancel : Option Moment) (progress : Progress Answer) (delivery : Delivery Answer) :
    Except (Conclusion Answer) (Progress Answer) :=
  let moment := progress.takenAt collector delivery.moment
  match cancelledBefore? cancel moment with
  | some cancelled => .error (progress.abandon cancelled)
  | none =>
      match delivery.outcome with
      | .ok answer => progress.takeAnswer merge moment answer
      | .error fault => .ok { progress with moment := moment, lastFault := some fault }

/-- Take deliveries in their order, as far as possible. -/
def takeAll (merge : Nat -> Answer -> Answer -> Except Fault Answer) (collector : Collector)
    (cancel : Option Moment) :
    Progress Answer -> List (Delivery Answer) -> Except (Conclusion Answer) (Progress Answer)
  | progress, [] => .ok progress
  | progress, delivery :: deliveries =>
      match progress.take merge collector cancel delivery with
      | .ok progress => takeAll merge collector cancel progress deliveries
      | .error conclusion => .error conclusion

/-- The outcome when nothing is left to take. -/
def outcome (empty : Answer) (progress : Progress Answer) : Except Fault Answer :=
  match progress.merged, progress.lastFault with
  | some merged, _ => .ok merged
  | none, some fault => .error (.allBackendsFailed fault)
  | none, none => .ok empty

/-- The end of a collection when nothing is left to take. -/
def conclude (empty : Answer) (progress : Progress Answer) : Conclusion Answer :=
  ⟨progress.moment, progress.outcome empty, progress.merges⟩

end Progress

namespace Delivery

variable {Answer : Type}

/-- Collect deliveries in their order, from a moment on. -/
def collect (merge : Nat -> Answer -> Answer -> Except Fault Answer) (empty : Answer)
    (collector : Collector) (cancel : Option Moment) (start : Moment)
    (deliveries : List (Delivery Answer)) : Conclusion Answer :=
  match (Progress.start start).takeAll merge collector cancel deliveries with
  | .ok progress => progress.conclude empty
  | .error conclusion => conclusion

end Delivery

/-- Where the outcome of one backend is awaited. -/
inductive Mailbox (Answer : Type) where
  /-- The outcome has been there from the beginning, or comes with a timer. -/
  | delivered (timer : Option Nat) (outcome : Except Fault Answer)
  /-- Whoever should have delivered is gone. -/
  | dropped
  /-- The outcome never comes, and nobody says so. -/
  | pending

namespace Mailbox

variable {Answer : Type}

/-- What a mailbox delivers; a mailbox that nobody can deliver to counts as a failing backend.  Nothing
when the outcome never comes. -/
def delivery? (index : Nat) : Mailbox Answer -> Option (Delivery Answer)
  | .delivered none outcome => some ⟨Moment.callStart, outcome⟩
  | .delivered (some millis) outcome => some ⟨(Moment.ofTimer millis).next, outcome⟩
  | .dropped => some ⟨Moment.callStart, .error (.backend (.fellSilent index))⟩
  | .pending => none

/-- The deliveries up to the first outcome that never comes, and whether there is one. -/
def deliveries (index : Nat) : List (Mailbox Answer) -> List (Delivery Answer) × Bool
  | [] => ([], false)
  | mailbox :: mailboxes =>
      match mailbox.delivery? index with
      | some delivery =>
          let (later, stuck) := deliveries (index + 1) mailboxes
          (delivery :: later, stuck)
      | none => ([], true)

/-- Collect what mailboxes deliver, as a caller.  Nothing when the collection never ends. -/
def collect? (merge : Nat -> Answer -> Answer -> Except Fault Answer) (empty : Answer)
    (cancel : Option Moment) (mailboxes : List (Mailbox Answer)) : Option (Conclusion Answer) :=
  let (arriving, stuck) := deliveries 0 mailboxes
  match (Progress.start Moment.callStart).takeAll merge .caller cancel arriving with
  | .error conclusion => some conclusion
  | .ok progress =>
      if stuck then cancel.map progress.abandon
      else some (progress.conclude empty)

end Mailbox
end QueryFederation
