import QueryFederation.Proofs.Federation.Cancelled
import QueryFederation.Proofs.Schedule.Endings

/-!
# Calls that nobody withdraws

What a call comes to when nobody withdraws it can be read off its tree of respondents.  This says at once
how the call ends in every order of steps, and how a call of backends ends that meets its request as this
tree does.
-/

namespace QueryFederation

open Schedule

variable {Answer : Type}

namespace Respondent

/-- That a call ends with an outcome if nobody withdraws it. -/
structure EndsWith (request : Request Answer) (root : Respondent Answer)
    (outcome : Except Fault Answer) : Prop where
  inEveryOrder : AlwaysEnds ⟨request, root, none⟩ (root.finishMillis request) outcome
  inCalls : forall backend : Backend, backend.respondent request = root ->
    (backend.call request none).ending = .returned outcome ∧
      (backend.call request none).moment.millis = root.finishMillis request

theorem endsWith_of_ending {request : Request Answer} {root : Respondent Answer}
    {outcome : Except Fault Answer} (returns : root.ending request = .returned outcome) :
    root.EndsWith request outcome := by
  constructor
  case inEveryOrder => exact alwaysEnds_of_never ⟨request, root, none⟩ rfl returns
  case inCalls =>
    rintro backend rfl
    have ending := Backend.call_uncancelled_ending request backend
    exact ⟨ending.trans returns, Backend.call_uncancelled_millis request backend⟩

end Respondent
end QueryFederation
