import QueryFederation.Fault.Basic
import QueryFederation.Federation.Moment

/-!
# The scope of one call

A call that is started by the program runs in a scope with a token of its own.  The token is cancelled
when the time limit elapses, and at the latest when the scope is closed.
-/

namespace QueryFederation

/-- The scope of a call. -/
@[ext]
structure CallScope where
  limitMillis : Option Nat
  isCancelled : Bool
  deriving DecidableEq, Repr

namespace CallScope

/-- A new scope.  A limit of zero is none. -/
def enter (timeoutMillis : Option Nat) : CallScope :=
  ⟨timeoutMillis.filter (fun millis => 0 < millis), false⟩

/-- The scope when its call is over. -/
def leave (scope : CallScope) : CallScope :=
  { scope with isCancelled := true }

/-- When the token is cancelled while the call runs. -/
def cancellation (scope : CallScope) : Option Cancellation :=
  scope.limitMillis.map .after

/-- The wordings of a fault of the call.  A cancellation is explained by the time limit, if there is
one. -/
def explain (scope : CallScope) (fault : Fault) : List String :=
  match scope.limitMillis with
  | some millis =>
      if fault.isCancelled then
        ("call cancelled (deadline " ++ toString millis ++ "ms)") :: fault.chain
      else fault.chain
  | none => fault.chain

end CallScope
end QueryFederation
