import Mathlib.Logic.Function.Basic
import Mathlib.Logic.Relation
import QueryFederation.Proofs.Federation.Respondent

/-!
# The order in which the units of a call may run

The course of a call decides every race by the moments of its parties.  Here no race is decided.  A
situation holds how far each request and each unit of a call has come, what each federation has taken,
and what the hooks were told.  A step of work is anything that one party may do next, and any party
that may do something may be the next one; only the virtual clock waits until nobody can do anything.

A request runs under the token of its federation's call, which counts as cancelled once the caller has
withdrawn the call or some federation above has ended or was dropped.  A unit and a collecting
federation look at that token first: they go on only while it is not cancelled.  A unit that finds it
cancelled drops its request, which then does nothing more, although units that the request had started
itself still have to report.

How a call ends and when is shown of every order of steps here, and of the course in the modules on
federations; the two come to the same.
-/

namespace QueryFederation
namespace Schedule

variable {Answer : Type}

/-- A call of a tree of respondents, and when the caller withdraws it. -/
structure Plan (Answer : Type) where
  request : Request Answer
  root : Respondent Answer
  cancel : Option Cancellation

/-- How far a request has come. -/
inductive RequestPhase (Answer : Type) where
  /-- It has not run yet. -/
  | unstarted
  /-- It waits for the timer of a leaf. -/
  | sleeping
  /-- Its federation takes outcomes. -/
  | collecting (merged : Option Answer) (lastFault : Option Fault)
  | ended (millis : Nat) (ending : Ending Answer)
  /-- Its unit dropped it while it ran. -/
  | dropped
  /-- Its unit dropped it before it ran. -/
  | skipped

/-- How far the unit of a member has come. -/
inductive UnitPhase (Answer : Type) where
  | absent
  | spawned
  /-- It has started the request and waits for it. -/
  | waiting
  /-- It has told the hook, and its outcome lies in the mailbox. -/
  | reported (outcome : Except Fault Answer)

/-- What a hook was told about one member, and when. -/
structure Report where
  place : Backend.Place
  index : Nat
  kind : ApiKind
  status : CallStatus
  millis : Nat
  deriving DecidableEq, Repr

/-- Everything that can differ between two points of a call. -/
structure Situation (Answer : Type) where
  millis : Nat
  isCancelled : Bool
  requests : Backend.Place -> RequestPhase Answer
  units : Backend.Place -> Nat -> UnitPhase Answer
  /-- The outcomes that a federation has taken out of its mailboxes, in the order of its members. -/
  taken : Backend.Place -> List (Except Fault Answer)
  reports : List Report

/-- Whether a request will do nothing more. -/
def RequestPhase.IsOver : RequestPhase Answer -> Prop
  | ended _ _ => True
  | dropped => True
  | skipped => True
  | _ => False

namespace Situation

/-- Nothing has run yet. -/
def start (cancel : Option Cancellation) : Situation Answer where
  millis := 0
  isCancelled := decide (cancel = some .upFront)
  requests := fun _ => .unstarted
  units := fun _ _ => .absent
  taken := fun _ => []
  reports := []

/-- Whether the token under which the request at a place runs is cancelled. -/
def IsWithdrawn (situation : Situation Answer) (place : Backend.Place) : Prop :=
  situation.isCancelled = true ∨
    exists above, above <+: place ∧ above ≠ place ∧ (situation.requests above).IsOver

/-- Whether somebody waits for the request at a place: the caller, or the unit of a member. -/
def IsAsked (situation : Situation Answer) (place : Backend.Place) : Prop :=
  place = [] ∨
    exists above index, place = above ++ [index] ∧ situation.units above index = .waiting

def setRequest (situation : Situation Answer) (place : Backend.Place)
    (phase : RequestPhase Answer) : Situation Answer :=
  { situation with requests := Function.update situation.requests place phase }

def setUnit (situation : Situation Answer) (place : Backend.Place) (index : Nat)
    (phase : UnitPhase Answer) : Situation Answer :=
  { situation with
    units := Function.update situation.units place
      (Function.update (situation.units place) index phase) }

/-- A federation spawns a unit for each of its members and begins to collect. -/
def fanOut (situation : Situation Answer) (place : Backend.Place) (size : Nat) :
    Situation Answer :=
  { situation with
    requests := Function.update situation.requests place (.collecting none none)
    units := Function.update situation.units place
      fun index => if index < size then .spawned else .absent }

/-- A unit tells the hook of its federation, if there is one, and delivers its outcome. -/
def report (situation : Situation Answer) (kind : ApiKind) (settings : FederationSettings)
    (place : Backend.Place) (index : Nat) (outcome : Except Fault Answer) : Situation Answer :=
  { situation.setUnit place index (.reported outcome) with
    reports := situation.reports ++
      if settings.isObserved then
        [⟨place, index, kind, CallStatus.ofOutcome outcome, situation.millis⟩]
      else [] }

/-- What becomes of a request when its unit drops it. -/
def afterDrop : RequestPhase Answer -> RequestPhase Answer
  | .unstarted => .skipped
  | .sleeping => .dropped
  | .collecting _ _ => .dropped
  | phase => phase

/-- A unit drops its request. -/
def drop (situation : Situation Answer) (place : Backend.Place) : Situation Answer :=
  situation.setRequest place (afterDrop (situation.requests place))

/-- A federation takes an outcome. -/
def take (situation : Situation Answer) (place : Backend.Place) (outcome : Except Fault Answer)
    (phase : RequestPhase Answer) : Situation Answer :=
  { situation.setRequest place phase with
    taken := Function.update situation.taken place (situation.taken place ++ [outcome]) }

end Situation

/-- What a federation answers when it has taken all outcomes. -/
def conclusion (empty : Answer) (merged : Option Answer) (lastFault : Option Fault) :
    Except Fault Answer :=
  match merged, lastFault with
  | some merged, _ => .ok merged
  | none, some fault => .error (.allBackendsFailed fault)
  | none, none => .ok empty

/-- One step of one party, at the time of the situation. -/
inductive Work (plan : Plan Answer) (now : Situation Answer) : Situation Answer -> Prop where
  | startLeaf {place : Backend.Place} {script : Script Answer}
      (there : plan.root.at? place = some (.leaf script)) (asked : now.IsAsked place)
      (fresh : now.requests place = .unstarted) :
      Work plan now (now.setRequest place .sleeping)
  | startFederation {place : Backend.Place} {settings : FederationSettings}
      {members : List (Respondent Answer)}
      (there : plan.root.at? place = some (.federation settings members))
      (asked : now.IsAsked place) (fresh : now.requests place = .unstarted) :
      Work plan now (now.fanOut place members.length)
  | startUnit {place : Backend.Place} {index : Nat} (spawned : now.units place index = .spawned) :
      Work plan now (now.setUnit place index .waiting)
  | leafEnds {place : Backend.Place} {script : Script Answer}
      (there : plan.root.at? place = some (.leaf script))
      (asleep : now.requests place = .sleeping) (due : script.delayMillis ≤ now.millis) :
      Work plan now (now.setRequest place (.ended now.millis script.ending))
  | leafYields {place : Backend.Place} {script : Script Answer}
      (there : plan.root.at? place = some (.leaf script))
      (asleep : now.requests place = .sleeping) (heeds : script.heedsCancellation = true)
      (withdrawn : now.IsWithdrawn place) :
      Work plan now (now.setRequest place (.ended now.millis (.returned (.error .cancelled))))
  | unitDelivers {place : Backend.Place} {settings : FederationSettings}
      {members : List (Respondent Answer)} {index millis : Nat} {ending : Ending Answer}
      (there : plan.root.at? place = some (.federation settings members))
      (waiting : now.units place index = .waiting)
      (ended : now.requests (place ++ [index]) = .ended millis ending)
      (standing : ¬ now.IsWithdrawn (place ++ [index])) :
      Work plan now
        (now.report plan.request.kind settings place index (ending.outcome index))
  | unitAbandons {place : Backend.Place} {settings : FederationSettings}
      {members : List (Respondent Answer)} {index : Nat}
      (there : plan.root.at? place = some (.federation settings members))
      (waiting : now.units place index = .waiting)
      (withdrawn : now.IsWithdrawn (place ++ [index])) :
      Work plan now ((now.drop (place ++ [index])).report plan.request.kind settings place index
        (.error .cancelled))
  | takes {place : Backend.Place} {settings : FederationSettings}
      {members : List (Respondent Answer)} {merged next : Option Answer}
      {lastFault : Option Fault} {outcome : Except Fault Answer}
      (there : plan.root.at? place = some (.federation settings members))
      (collecting : now.requests place = .collecting merged lastFault)
      (standing : ¬ now.IsWithdrawn place)
      (delivered : now.units place (now.taken place).length = .reported outcome)
      (extended : Verdict.extend (plan.request.merge settings.window) merged outcome = .ok next) :
      Work plan now (now.take place outcome
        (.collecting next (Verdict.lastFaultAfter lastFault outcome)))
  | mergeFails {place : Backend.Place} {settings : FederationSettings}
      {members : List (Respondent Answer)} {merged : Option Answer} {lastFault : Option Fault}
      {outcome : Except Fault Answer} {fault : Fault}
      (there : plan.root.at? place = some (.federation settings members))
      (collecting : now.requests place = .collecting merged lastFault)
      (standing : ¬ now.IsWithdrawn place)
      (delivered : now.units place (now.taken place).length = .reported outcome)
      (failed : Verdict.extend (plan.request.merge settings.window) merged outcome = .error fault) :
      Work plan now (now.take place outcome (.ended now.millis (.returned (.error fault))))
  | withdraws {place : Backend.Place} {settings : FederationSettings}
      {members : List (Respondent Answer)} {merged : Option Answer} {lastFault : Option Fault}
      (there : plan.root.at? place = some (.federation settings members))
      (collecting : now.requests place = .collecting merged lastFault)
      (unfinished : (now.taken place).length < members.length)
      (withdrawn : now.IsWithdrawn place) :
      Work plan now (now.setRequest place (.ended now.millis (.returned (.error .cancelled))))
  | concludes {place : Backend.Place} {settings : FederationSettings}
      {members : List (Respondent Answer)} {merged : Option Answer} {lastFault : Option Fault}
      (there : plan.root.at? place = some (.federation settings members))
      (collecting : now.requests place = .collecting merged lastFault)
      (finished : (now.taken place).length = members.length) :
      Work plan now (now.setRequest place
        (.ended now.millis (.returned (conclusion plan.request.empty merged lastFault))))
  | cancels (planned : plan.cancel = some (.after now.millis)) (pending : now.isCancelled = false) :
      Work plan now { now with isCancelled := true }

/-- Whether nobody can do anything at the time of a situation. -/
def IsQuiet (plan : Plan Answer) (now : Situation Answer) : Prop :=
  forall later, ¬ Work plan now later

/-- What may come next: a step of work, or, when nobody can do anything, the next millisecond. -/
inductive Next (plan : Plan Answer) (now : Situation Answer) : Situation Answer -> Prop where
  | work {later : Situation Answer} (step : Work plan now later) : Next plan now later
  | pass (quiet : IsQuiet plan now) : Next plan now { now with millis := now.millis + 1 }

/-- Whether every order of steps from a situation on leads to a goal. -/
inductive Inevitably (plan : Plan Answer) (goal : Situation Answer -> Prop) :
    Situation Answer -> Prop where
  | already {now : Situation Answer} (reached : goal now) : Inevitably plan goal now
  | later {now : Situation Answer} (possible : exists next, Next plan now next)
      (always : forall next, Next plan now next -> Inevitably plan goal next) :
      Inevitably plan goal now

/-- Whether a call ends at a time with an outcome, in whatever order its units run. -/
def AlwaysEnds (plan : Plan Answer) (millis : Nat) (outcome : Except Fault Answer) : Prop :=
  Inevitably plan (fun now => now.requests [] = .ended millis (.returned outcome))
    (Situation.start plan.cancel)

end Schedule
end QueryFederation
