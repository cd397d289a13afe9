import QueryFederation.Proofs.Calls.Uninterrupted
import QueryFederation.Proofs.Federation.Grouping

/-!
# Federations of federations

Whether members are asked by one federation or by federations in a federation makes no difference to the
answer, as long as the merging of answers is associative.  It is for label values, for label sets and for
vectors, and trivially for scalars and texts.  For matrices it is not, because a federation thins out what
it merges, and where shapes differ the place of the mismatch decides which shapes are named.

When all members fail, the federation and the federation of federations fail as well.  They differ in how
often the fault of the last member is wrapped.
-/

namespace QueryFederation

namespace ReadOperation

/-- Whether the results among outcomes have one shape, which is not that of a matrix. -/
def HaveOneShape (outcomes : List (Except Fault QueryResult)) : Prop :=
  exists shape, shape ≠ .matrix ∧ forall result, .ok result ∈ outcomes -> result.shape = shape

/-- Whether the answers among outcomes may be merged in groups. -/
def RegroupsFreely : (operation : ReadOperation) -> List (Except Fault operation.Answer) -> Prop
  | labelValues _, _ => True
  | query _, outcomes => HaveOneShape outcomes
  | queryRange _ _, outcomes => HaveOneShape outcomes
  | series _, _ => True

variable {outcomes : List (Except Fault QueryResult)}

theorem regroups_of_haveOneShape {request : Request QueryResult} (results : request.MergesResults)
    (oneShape : HaveOneShape outcomes) :
    exists (Entry : Type) (form : Entry -> QueryResult) (join : Entry -> Entry -> Entry),
      request.Regroups form join ∧
        forall result, .ok result ∈ outcomes -> exists entry, form entry = result := by
  rcases oneShape with ⟨shape, notMatrix, sameShape⟩
  refine ⟨shape.Content, shape.form, shape.join 0, ⟨?_, Shape.join_assoc notMatrix 0⟩, ?_⟩
  · intro window
    have merges := results.mergesAs shape window
    rwa [Shape.join_congr notMatrix _ 0] at merges
  · exact fun result isAnswer => Shape.exists_form (sameShape result isAnswer)

/-- Answers that may be merged in groups have a form in which they are joined associatively. -/
theorem regroups_of_regroupsFreely (operation : ReadOperation)
    {outcomes : List (Except Fault operation.Answer)} (free : operation.RegroupsFreely outcomes) :
    exists (Entry : Type) (form : Entry -> operation.Answer) (join : Entry -> Entry -> Entry),
      operation.request.Regroups form join ∧
        forall answer, .ok answer ∈ outcomes -> exists entry, form entry = answer := by
  cases operation with
  | labelValues label =>
      exact ⟨List String, id, _, ⟨Request.labelValues_mergesAs label, Merge.union_assoc⟩,
        fun answer _ => ⟨answer, rfl⟩⟩
  | query text => exact regroups_of_haveOneShape (Request.query_mergesResults text) free
  | queryRange text range =>
      exact regroups_of_haveOneShape (Request.queryRange_mergesResults text range) free
  | series metrics =>
      exact ⟨List LabelSet, id, _, ⟨Request.series_mergesAs metrics, Merge.union_assoc⟩,
        fun answer _ => ⟨answer, rfl⟩⟩

end ReadOperation

/-- A federation of the federations of groups answers what one federation of all members answers, whatever
the windows and however deep the groups, and fails if and only if that one fails.  The root cause is the
fault of the last member in both cases. -/
theorem federation_of_groups_agrees (operation : ReadOperation) (flat outer : FederationSettings)
    (groupings : List (Grouping (Respondent operation.Answer)))
    (outcomes : List (Except Fault operation.Answer))
    (returned : (Grouping.membersOfAll groupings).map (Respondent.ending operation.request) =
      outcomes.map .returned)
    (free : operation.RegroupsFreely outcomes) :
    exists flatOutcome nestedOutcome,
      (Respondent.federation flat (Grouping.membersOfAll groupings)).EndsWith operation.request
          flatOutcome ∧
        (Respondent.federation outer (Grouping.federateAll .federation groupings)).EndsWith
          operation.request nestedOutcome ∧
        Verdict.Agree outcomes flatOutcome nestedOutcome := by
  refine ⟨_, _, Respondent.endsWith_of_ending rfl, Respondent.endsWith_of_ending rfl, ?_⟩
  by_cases nobody : groupings = []
  · rw [nobody]
    exact .inl ⟨operation.request.empty, rfl, rfl⟩
  · rcases operation.regroups_of_regroupsFreely free with ⟨Entry, form, join, regroups, formed⟩
    -- Members that are not grouped are groupings as well, so one lemma serves both federations.
    let singles := (Grouping.membersOfAll groupings).map Grouping.single
    have singleMembers : Grouping.membersOfAll singles = Grouping.membersOfAll groupings :=
      Grouping.membersOfAll_map_single _
    have singlesNonempty : singles ≠ [] := by
      intro none
      have noMembers := List.map_eq_nil_iff.mp none
      exact Grouping.membersOfAll_ne_nil nobody noMembers
    have flatSum := Respondent.sumsUp_outcomes_federateAll regroups flat.window singlesNonempty
      (singleMembers ▸ returned) formed
    rw [Grouping.federateAll_map_single] at flatSum
    have nestedSum := Respondent.sumsUp_outcomes_federateAll regroups outer.window nobody returned
      formed
    exact flatSum.agree (regroups.merges flat.window).injective nestedSum

/-- Three members, of which the second fails, in groups with different windows. -/
theorem federation_of_groups_agrees_replicas :
    let operation := ReadOperation.query "up"
    let settings : Nat -> FederationSettings := fun seconds =>
      ⟨Duration.ofSeconds seconds, [], false⟩
    let first : InstantSample := ⟨.empty, ⟨0, 1⟩⟩
    let again : InstantSample := ⟨.empty, ⟨5000, 2⟩⟩
    let mock : QueryResult -> Backend := fun result =>
      .mock { Mock.silent "a" with query := result }
    let failing : Backend := .mock { Mock.silent "b" with failure := some "down" }
    let nested := Backend.federation (settings 3)
      [.federation (settings 2) [mock (.vector [first]), .federation (settings 1) [failing]],
        mock (.vector [again])]
    (nested.call operation.request none).ending = .returned (.ok (.vector [first])) := by
  intro operation settings first again mock failing nested
  let respondent := Backend.respondent operation.request
  let groupings : List (Grouping (Respondent QueryResult)) :=
    [.group (settings 2) (.single (respondent (mock (.vector [first]))))
        [.group (settings 1) (.single (respondent failing)) []],
      .single (respondent (mock (.vector [again])))]
  let outcomes : List (Except Fault QueryResult) :=
    [.ok (.vector [first]), .error (.backend (.named "b" "down")), .ok (.vector [again])]
  have oneShape : operation.RegroupsFreely outcomes := by
    refine ⟨.vector, by decide, ?_⟩
    intro result isAnswer
    simp only [outcomes, List.mem_cons, List.not_mem_nil, or_false, reduceCtorEq, false_or,
      Except.ok.injEq] at isAnswer
    rcases isAnswer with rfl | rfl <;> rfl
  rcases federation_of_groups_agrees operation (settings 0) (settings 3) groupings outcomes
    rfl oneShape with ⟨flatOutcome, nestedOutcome, flatEnds, nestedEnds, agree⟩
  have flatCall := (flatEnds.inCalls (Backend.federation (settings 0)
    [mock (.vector [first]), failing, mock (.vector [again])]) rfl).1
  have nestedCall := (nestedEnds.inCalls nested rfl).1
  have flatOutcome_eq : flatOutcome = .ok (.vector [first]) := (Ending.returned.inj flatCall).symm
  rcases agree with ⟨answer, flatAnswer, nestedAnswer⟩ | ⟨flatFault, _, _, failed, _⟩
  · cases flatOutcome_eq.symm.trans flatAnswer
    rw [nestedCall, nestedAnswer]
  · cases flatOutcome_eq.symm.trans failed

end QueryFederation
