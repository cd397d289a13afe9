import QueryFederation.Proofs.Federation.Uncancelled
import QueryFederation.Proofs.Schedule.Endings

/-!
# What a federation answers

A federation asks its members all at once, and they may end in any order.  Its answer depends on the
outcomes of the members alone, taken by index.  The two halves of the main result say this of every
order of steps, for members that end in any way and after any delay, and of the course that a call of
backends takes.
-/

namespace QueryFederation

open Schedule

/-- A call that nobody cancels ends with the verdict on the outcomes in the order of the members, at
the greatest delay among the members that are consulted, in whatever order its units run. -/
theorem federation_answers_by_index (operation : ReadOperation) (settings : FederationSettings)
    (members : List (Respondent operation.Answer)) (backends : List Backend) :
    let request := operation.request
    let merge := request.merge settings.window
    let answer := fun outcomes => Verdict.ofOutcomes merge request.empty outcomes
    AlwaysEnds ⟨request, .federation settings members, none⟩
        (Verdict.delayMillis merge (Respondent.outcomes request members)
          (members.map (Respondent.finishMillis request)))
        (answer (Respondent.outcomes request members)) ∧
      (let respondents := backends.map (Backend.respondent request)
        let call := (Backend.federation settings backends).call request none
        call.ending = .returned (answer (Respondent.outcomes request respondents)) ∧
          call.moment.millis = Verdict.delayMillis merge (Respondent.outcomes request respondents)
            (respondents.map (Respondent.finishMillis request))) ∧
      answer [] = .ok request.empty ∧
      forall outcomes : List (Except Fault operation.Answer),
        (forall first rest, Verdict.answers outcomes = first :: rest ->
          answer outcomes = rest.foldlM merge first ∧
            forall fault, rest.foldlM merge first = .error fault ->
              exists left right, fault = .shapeMismatch left right) ∧
          (Verdict.answers outcomes = [] -> forall last, outcomes.getLast? = some last ->
            exists fault, last = .error fault ∧
              answer outcomes = .error (.allBackendsFailed fault)) := by
  intro request merge answer
  refine ⟨?_, ⟨?_, ?_⟩, rfl, ?_⟩
  · have ends := alwaysEnds_of_never ⟨request, .federation settings members, none⟩ rfl rfl
    dsimp only at ends
    rw [Respondent.finishMillis, Respondent.finishes_eq_map] at ends
    exact ends
  · have ending := Backend.answer_uncancelled request .caller Moment.callStart rfl
      (.federation settings backends)
    rw [Backend.respondent, Backend.respondents_eq_map] at ending
    exact ending.1
  · have ending := Backend.answer_uncancelled request .caller Moment.callStart rfl
      (.federation settings backends)
    rw [Backend.respondent, Backend.respondents_eq_map, Respondent.finishMillis,
      Respondent.finishes_eq_map] at ending
    exact ending.2
  · intro outcomes
    constructor
    · intro first rest some
      refine ⟨Verdict.ofOutcomes_of_answers merge request.empty some, ?_⟩
      intro fault failed
      rcases Verdict.exists_merge_of_foldlM_error failed with ⟨left, right, mismatch⟩
      exact operation.shapeMismatch_of_merge mismatch
    · intro none last isLast
      exact Verdict.ofOutcomes_of_faults merge request.empty none isLast

end QueryFederation
