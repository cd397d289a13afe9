/-!
# Deadlines

A deadline cancels a token when its time has come.  A token may have a child, which is cancelled with
it but can also be cancelled alone.  A deadline watches one of the two.  Its timer ends when the token
it watches is cancelled, by itself or by somebody else, and whichever comes first.

The state holds the virtual time, the two tokens and the timer.  After every step the timer runs if it
can, so the states between the steps are those in which nothing more can run.
-/

namespace QueryFederation

/-- Which of two related tokens is meant. -/
inductive Token where
  | parent
  | child
  deriving DecidableEq, Repr

/-- A time limit, counted from the beginning, and the token that is cancelled then. -/
structure Deadline where
  dueMillis : Nat
  watched : Token
  deriving DecidableEq, Repr

/-- Two tokens and the timer of a deadline at one time. -/
@[ext]
structure DeadlineState where
  nowMillis : Nat
  parentCancelled : Bool
  childCancelled : Bool
  timerFinished : Bool
  deriving DecidableEq, Repr

/-- What happens from outside. -/
inductive DeadlineEvent where
  /-- Time passes. -/
  | wait (millis : Nat)
  /-- Somebody cancels the parent token. -/
  | cancel
  deriving DecidableEq, Repr

namespace DeadlineState

/-- Nothing is cancelled, and the timer has not run yet. -/
def start : DeadlineState :=
  ⟨0, false, false, false⟩

/-- Whether a token is cancelled. -/
def isCancelled (state : DeadlineState) : Token -> Bool
  | .parent => state.parentCancelled
  | .child => state.childCancelled

/-- Cancel a token.  The child is cancelled with its parent. -/
def cancel (state : DeadlineState) : Token -> DeadlineState
  | .parent => { state with parentCancelled := true, childCancelled := true }
  | .child => { state with childCancelled := true }

/-- Let the timer run.  It ends without effect when its token is cancelled, it cancels the token when
its time has come, and it waits otherwise. -/
def settle (deadline : Deadline) (state : DeadlineState) : DeadlineState :=
  if state.timerFinished then state
  else if state.isCancelled deadline.watched then { state with timerFinished := true }
  else if deadline.dueMillis ≤ state.nowMillis then
    { state.cancel deadline.watched with timerFinished := true }
  else state

/-- The state after an event, when the timer has run. -/
def step (deadline : Deadline) (state : DeadlineState) : DeadlineEvent -> DeadlineState
  | .wait millis => settle deadline { state with nowMillis := state.nowMillis + millis }
  | .cancel => settle deadline (state.cancel .parent)

/-- The state after events in their order. -/
def run (deadline : Deadline) (state : DeadlineState) (events : List DeadlineEvent) :
    DeadlineState :=
  events.foldl (step deadline) state

end DeadlineState
end QueryFederation
