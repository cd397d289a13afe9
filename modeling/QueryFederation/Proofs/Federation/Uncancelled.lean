import QueryFederation.Proofs.Federation.Collection
import QueryFederation.Proofs.Federation.Respondent

/-!
# Calls that nobody cancels

Without a cancellation the course of a call comes to what its tree of respondents comes to: it ends in
the same way and at the same time.  Every part of a call begins in the first millisecond, so the time
of a member's end is its own delay.
-/

namespace QueryFederation

namespace Backend

variable {Answer : Type}

theorem mock_finish_millis (mock : Mock) {start : Moment} (atZero : start.millis = 0) :
    (mock.finish start).millis = mock.delayMillis := by
  unfold Mock.finish
  by_cases immediate : mock.delayMillis = 0
  · rw [if_pos immediate, atZero, immediate]
  · rw [if_neg immediate]
    rfl

theorem mock_yieldsTo?_none (mock : Mock) : mock.yieldsTo? none = none := by
  unfold Mock.yieldsTo?
  split <;> rfl

/-- The request to a federation, as the collection of what its units deliver. -/
theorem answer_federation (request : Request Answer) (cancel : Option Moment) (collector : Collector)
    (start : Moment) (settings : FederationSettings) (members : List Backend) :
    (federation settings members).answer request cancel collector start =
      let conclusion := (Progress.start start).conclusion (fun _ => request.merge settings.window)
        request.empty collector cancel (deliveries request cancel start 0 members)
      ⟨conclusion.moment, .returned conclusion.outcome, conclusion.merges⟩ := rfl

mutual

/-- A call that begins in the first millisecond and is not cancelled ends as its respondent does. -/
theorem answer_uncancelled (request : Request Answer) (collector : Collector) (start : Moment)
    (atZero : start.millis = 0) (backend : Backend) :
    (backend.answer request none collector start).ending =
        (backend.respondent request).ending request ∧
      (backend.answer request none collector start).moment.millis =
        (backend.respondent request).finishMillis request := by
  cases backend with
  | mock scripted =>
      simp only [answer, Mock.answer, mock_yieldsTo?_none]
      exact ⟨rfl, mock_finish_millis scripted atZero⟩
  | fixture name snapshot => exact ⟨rfl, atZero⟩
  | crashing message => exact ⟨rfl, atZero⟩
  | federation settings members =>
      rcases deliveries_uncancelled request start atZero 0 members with ⟨outcomes, finishes⟩
      have collected := Delivery.collect_uncancelled (request.merge settings.window) request.empty
        collector start (deliveries request none start 0 members)
      rw [outcomes, finishes, atZero, Nat.zero_max] at collected
      exact ⟨congrArg Ending.returned collected.1, collected.2⟩

/-- The units of such a call deliver the outcomes of the respondents, at the times of their ends. -/
theorem deliveries_uncancelled (request : Request Answer) (start : Moment)
    (atZero : start.millis = 0) (index : Nat) (members : List Backend) :
    (deliveries request none start index members).map Delivery.outcome =
        Respondent.outcomesFrom request index (respondents request members) ∧
      (deliveries request none start index members).map
          (fun delivery => delivery.moment.millis) =
        Respondent.finishes request (respondents request members) := by
  cases members with
  | nil => exact ⟨rfl, rfl⟩
  | cons member rest =>
      rcases answer_uncancelled request .unit start.next.next atZero member with ⟨ending, finish⟩
      rcases deliveries_uncancelled request start atZero (index + 1) rest with ⟨outcomes, finishes⟩
      constructor
      · exact congrArg₂ List.cons (congrArg (Ending.outcome index) ending) outcomes
      · exact congrArg₂ List.cons finish finishes

end

end Backend
end QueryFederation
