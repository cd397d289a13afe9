import QueryFederation.Proofs.Calls.Silence
import QueryFederation.Proofs.Merge.Shapes

/-!
# Which mismatch of shapes is told

The members of a federation may answer with results of different shapes.  The mismatch that is told is the
one between the first member that answers and the first later one that answers with another shape, in the
order of the members.  A member that fails or crashes has no shape and is no side of a mismatch, not even if
its own members do not go together.  When the answers come makes no difference.
-/

namespace QueryFederation
namespace Respondent

/-- That of the respondents that answer the first one has a result of one shape, and the first one with a
result of another shape has one of the other. -/
inductive FirstMismatch (request : Request QueryResult) :
    List (Respondent QueryResult) -> Shape -> Shape -> Prop where
  | intro {before between after : List (Respondent QueryResult)} {first odd : Respondent QueryResult}
    {answer other : QueryResult}
    (silent : forall member, member ∈ before -> member.answer? request = none)
    (isFirst : first.answer? request = some answer)
    (alike : forall member result, member ∈ between -> member.answer? request = some result ->
      result.shape = answer.shape)
    (isOdd : odd.answer? request = some other) (different : other.shape ≠ answer.shape) :
    FirstMismatch request (before ++ first :: (between ++ odd :: after)) answer.shape other.shape

section Answers

variable {request : Request QueryResult} {members : List (Respondent QueryResult)} {left right : Shape}

theorem FirstMismatch.answers (mismatch : FirstMismatch request members left right) :
    exists first rest odd, members.filterMap (answer? request) = first :: rest ∧
      Merge.IsFirstOdd first rest odd ∧ left = first.shape ∧ right = odd.shape := by
  cases mismatch with
  | @intro before between after first odd answer other silent isFirst alike isOdd different =>
      refine ⟨answer, between.filterMap (answer? request) ++ other :: after.filterMap (answer? request),
        other, ?_, ⟨_, _, rfl, ?_, different⟩, rfl, rfl⟩
      · rw [List.filterMap_append, List.filterMap_eq_nil_iff.mpr silent, List.nil_append,
          List.filterMap_cons_some isFirst, List.filterMap_append, List.filterMap_cons_some isOdd]
      · intro result isBetween
        rcases List.mem_filterMap.mp isBetween with ⟨member, isMember, isAnswer⟩
        exact alike member result isMember isAnswer

theorem firstMismatch_of_answers {first odd : QueryResult} {rest : List QueryResult}
    (same : members.filterMap (answer? request) = first :: rest)
    (isFirstOdd : Merge.IsFirstOdd first rest odd) :
    FirstMismatch request members first.shape odd.shape := by
  rcases isFirstOdd with ⟨before, after, rfl, alike, different⟩
  rcases List.filterMap_eq_cons_iff.mp same with ⟨silent, member, later, rfl, nothing, isFirst, isLater⟩
  rcases exists_division_of_answers isLater with ⟨between, other, last, rfl, isBetween, isOdd, _⟩
  refine .intro nothing isFirst ?_ isOdd different
  intro member result isMember isAnswer
  apply alike
  rw [← isBetween]
  exact List.mem_filterMap.mpr ⟨member, isMember, isAnswer⟩

/-- A verdict on results is a mismatch of shapes exactly if it is the first one among the members. -/
theorem ofOutcomes_eq_mismatch_iff (results : request.MergesResults) (window : Duration) :
    Verdict.ofOutcomes (request.merge window) request.empty (outcomes request members) =
        .error (.shapeMismatch left right) <->
      FirstMismatch request members left right := by
  have answers_eq : Verdict.answers (outcomes request members) = members.filterMap (answer? request) :=
    answers_outcomesFrom request 0 members
  cases same : members.filterMap (answer? request) with
  | nil =>
      constructor
      · intro failed
        have noMerge : Verdict.merging (request.merge window) (outcomes request members) = .ok none := by
          rw [Verdict.merging, answers_eq, same]
        -- Without answers a federation without members answers, and any other one fails altogether.
        cases Verdict.decision (request.merge window) request.empty (outcomes request members) with
        | breaks merges _ => cases merges.symm.trans noMerge
        | answers merges _ => cases merges.symm.trans noMerge
        | allFailed _ decided => cases decided.symm.trans failed
        | nobody decided => cases decided.symm.trans failed
      · intro mismatch
        rcases mismatch.answers with ⟨first, rest, odd, isCons, _⟩
        cases same.symm.trans isCons
  | cons first rest =>
      rw [Verdict.ofOutcomes_of_answers _ _ (answers_eq.trans same), results,
        Request.foldlM_mergeResults]
      constructor
      · intro failed
        cases folded : rest.foldlM (Merge.results window) first with
        | ok merged =>
            rw [folded] at failed
            cases failed
        | error mismatch =>
            rw [folded] at failed
            cases failed
            rcases Merge.foldlM_results_eq_error_iff.mp folded with ⟨odd, isFirstOdd, rfl⟩
            exact firstMismatch_of_answers same isFirstOdd
      · intro mismatch
        rcases mismatch.answers with ⟨_, _, odd, isCons, isFirstOdd, rfl, rfl⟩
        cases same.symm.trans isCons
        rw [Merge.foldlM_results_of_odd isFirstOdd]
        rfl

end Answers

/-- Outcomes depend on how members end, and on nothing else. -/
theorem outcomes_congr {Answer : Type} {request : Request Answer}
    {members others : List (Respondent Answer)}
    (same : others.map (ending request) = members.map (ending request)) :
    outcomes request others = outcomes request members := by
  apply List.ext_getElem?
  intro index
  have sameEnding := congrArg (fun endings => endings[index]?.map (Ending.outcome index)) same
  simp only [List.getElem?_map, Option.map_map] at sameEnding
  rw [outcomes_getElem?, outcomes_getElem?]
  exact sameEnding

end Respondent

/-- That a federation ends, whenever its members end, in one and the same way, and that this is a mismatch
of shapes exactly if it is the first one among the members. -/
def Request.TellsFirstMismatch (request : Request QueryResult) : Prop :=
  forall (settings : FederationSettings) (members : List (Respondent QueryResult)),
    exists outcome,
      (forall others : List (Respondent QueryResult),
        others.map (Respondent.ending request) = members.map (Respondent.ending request) ->
          (Respondent.federation settings others).EndsWith request outcome) ∧
        forall left right, outcome = .error (.shapeMismatch left right) <->
          Respondent.FirstMismatch request members left right

theorem Request.MergesResults.tellsFirstMismatch {request : Request QueryResult}
    (results : request.MergesResults) : request.TellsFirstMismatch := by
  intro settings members
  refine ⟨Verdict.ofOutcomes (request.merge settings.window) request.empty
    (Respondent.outcomes request members), ?_, ?_⟩
  · intro others same
    apply Respondent.endsWith_of_ending
    rw [← Respondent.outcomes_congr same]
    rfl
  · exact fun left right => Respondent.ofOutcomes_eq_mismatch_iff results settings.window

/-- Results come to a result exactly if they have one shape, and it has this shape too; scalars and texts
come to the first one.  Otherwise the mismatch is told between the first result and the first one of another
shape.  In a federation these are the first member that answers and the first one that answers with another
shape, whichever other members fail and whenever answers come. -/
theorem first_mismatch_told :
    (forall (window : Duration) (first : QueryResult) (rest : List QueryResult),
        Merge.FoldsByShape window first rest) ∧
      (forall text, (Request.query text).TellsFirstMismatch) ∧
      forall text range, (Request.queryRange text range).TellsFirstMismatch :=
  ⟨Merge.foldsByShape, fun text => (Request.query_mergesResults text).tellsFirstMismatch,
    fun text range => (Request.queryRange_mergesResults text range).tellsFirstMismatch⟩

/-- Two members fail, one of them with a mismatch of its own, and one breaks down.  The scalar comes before the
vector, but is behind it among the members. -/
theorem first_mismatch_told_among_failures :
    let request := Request.query "up"
    let settings : FederationSettings := ⟨Duration.zero, [], false⟩
    let answering (result : QueryResult) (delayMillis : Nat) : Backend :=
      .mock { Mock.silent "a" with query := result, delayMillis := delayMillis }
    let failing := Backend.mock { Mock.silent "b" with failure := some "down" }
    let torn := Backend.federation settings [answering (.matrix []) 0, answering (.scalar ⟨0, 1⟩) 0]
    let members := [failing, torn, answering (.vector []) 20, .crashing "lost", answering (.vector []) 5,
      answering (.scalar ⟨0, 2⟩) 0, answering (.string ⟨0, "up"⟩) 0]
    Respondent.FirstMismatch request (members.map (Backend.respondent request)) .vector .scalar ∧
      ((Backend.federation settings members).call request none).ending =
        .returned (.error (.shapeMismatch .vector .scalar)) := by
  intro request settings answering failing torn members
  have answers : (members.map (Backend.respondent request)).filterMap (Respondent.answer? request) =
      [.vector [], .vector [], .scalar ⟨0, 2⟩, .string ⟨0, "up"⟩] := rfl
  have isFirstOdd : Merge.IsFirstOdd (.vector [])
      [.vector [], .scalar ⟨0, 2⟩, .string ⟨0, "up"⟩] (.scalar ⟨0, 2⟩) :=
    ⟨[.vector []], [.string ⟨0, "up"⟩], rfl, by simp [QueryResult.shape], by decide⟩
  have isFirst := Respondent.firstMismatch_of_answers answers isFirstOdd
  rcases first_mismatch_told.2.1 "up" settings (members.map (Backend.respondent request)) with
    ⟨outcome, ends, told⟩
  have called := ((ends _ rfl).inCalls (Backend.federation settings members) rfl).1
  exact ⟨isFirst, called.trans (congrArg Ending.returned ((told .vector .scalar).mpr isFirst))⟩

end QueryFederation
