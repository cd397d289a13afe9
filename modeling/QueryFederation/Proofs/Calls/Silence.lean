import Mathlib.Data.Set.List
import QueryFederation.Proofs.Calls.Uninterrupted
import QueryFederation.Proofs.Federation.Forms
import QueryFederation.Proofs.Merge.Shapes
import QueryFederation.Proofs.Merge.Streams

/-!
# Members with nothing to say

A federation without members, and a snapshot that knows nothing of what it is asked, answer with the empty
answer of the operation.  It is neutral for merging on both sides, as long as the other answers repeat
nothing and have its shape.  Label values and label sets always have it.  A result has it if it is a vector
for an instant query and a matrix for a range query.

A result of another shape cannot be merged with the empty answer.  This is not left to chance: the empty
answer is a vector or a matrix like any other, and a mismatch of shapes is a fault of the call.
-/

namespace QueryFederation

/-- The answer of a request, if it ends with one. -/
def Ending.answer? {Answer : Type} : Ending Answer -> Option Answer
  | .returned (.ok answer) => some answer
  | _ => none

theorem Ending.answer?_eq_some_iff {Answer : Type} {ending : Ending Answer} {answer : Answer} :
    ending.answer? = some answer <-> ending = .returned (.ok answer) := by
  constructor
  · intro isAnswer
    unfold Ending.answer? at isAnswer
    split at isAnswer
    · rw [Option.some.inj isAnswer]
    · cases isAnswer
  · rintro rfl
    rfl

/-- Whether a result holds no series twice. -/
def QueryResult.IsDistinct : QueryResult -> Prop
  | vector series => (series.map InstantSample.metric).Nodup
  | matrix series => (series.map SampleStream.metric).Nodup
  | scalar _ => True
  | string _ => True

namespace ReadOperation

/-- Whether an answer to an operation holds nothing twice. -/
def IsDistinct : (operation : ReadOperation) -> operation.Answer -> Prop
  | labelValues _, values => values.Nodup
  | query _, result => result.IsDistinct
  | queryRange _ _, result => result.IsDistinct
  | series _, labelSets => labelSets.Nodup

/-- Whether an answer has the shape of the empty answer to the operation. -/
def IsUsual : (operation : ReadOperation) -> operation.Answer -> Prop
  | labelValues _, _ => True
  | query _, result => result.shape = .vector
  | queryRange _ _, result => result.shape = .matrix
  | series _, _ => True

end ReadOperation

/-- Whether a backend is without data for an operation. -/
def Backend.HasNothing : ReadOperation -> Backend -> Prop
  | _, .federation _ [] => True
  | .labelValues label, .fixture _ snapshot => snapshot.labelValues.get? label = none
  | .query text, .fixture _ snapshot => snapshot.instant.get? text = none
  | .queryRange text _, .fixture _ snapshot => snapshot.range.get? text = none
  | .series metrics, .fixture _ snapshot =>
      forall labels, labels ∈ snapshot.series -> LabelSet.belongsTo metrics labels = false
  | _, _ => False

/-- A backend without data answers at once, and with the empty answer. -/
theorem Backend.HasNothing.answers {operation : ReadOperation} {backend : Backend}
    (nothing : backend.HasNothing operation) :
    (backend.respondent operation.request).ending operation.request =
        .returned (.ok operation.request.empty) ∧
      (backend.respondent operation.request).finishMillis operation.request = 0 := by
  cases backend with
  | mock scripted => cases operation <;> cases nothing
  | crashing message => cases operation <;> cases nothing
  | federation settings members =>
      cases members with
      | nil => exact ⟨rfl, rfl⟩
      | cons first rest => cases operation <;> cases nothing
  | fixture name snapshot =>
      refine ⟨congrArg (fun answer => Ending.returned (.ok answer)) ?_, rfl⟩
      cases operation with
      | labelValues label =>
          change (snapshot.labelValues.get? label).getD [] = []
          rw [show snapshot.labelValues.get? label = none from nothing]
          rfl
      | query text =>
          change (snapshot.instant.get? text).getD (.vector []) = .vector []
          rw [show snapshot.instant.get? text = none from nothing]
          rfl
      | queryRange text range =>
          change snapshot.rangeResult text range = .matrix []
          unfold Fixture.rangeResult
          rw [show snapshot.range.get? text = none from nothing]
      | series metrics =>
          change snapshot.series.filter (LabelSet.belongsTo metrics) = []
          rw [List.filter_eq_nil_iff]
          intro labels isSeries
          rw [nothing labels isSeries]
          exact Bool.false_ne_true

section Neutral

variable {Answer Entry : Type}

/-- That the empty answer changes nothing of answers of a form that hold nothing twice. -/
structure Request.HasNeutral (request : Request Answer) (window : Duration) (form : Entry -> Answer)
    (join : Entry -> Entry -> Entry) (nothing : Entry) (isDistinct : Answer -> Prop) : Prop
    extends request.MergesAs window form join where
  empty_eq : request.empty = form nothing
  closed : forall {first second : Entry}, isDistinct (form first) -> isDistinct (form second) ->
    isDistinct (form (join first second))
  left : forall {entry : Entry}, isDistinct (form entry) -> join nothing entry = entry
  right : forall {entry : Entry}, isDistinct (form entry) -> join entry nothing = entry

/-- Outcomes among which there is one empty answer more come to the same, and no merge fails. -/
theorem Request.HasNeutral.ofOutcomes_insert {request : Request Answer} {window : Duration}
    {form : Entry -> Answer} {join : Entry -> Entry -> Entry} {nothing : Entry}
    {isDistinct : Answer -> Prop}
    (neutral : request.HasNeutral window form join nothing isDistinct)
    {plain widened : List (Except Fault Answer)} {before after : List Entry}
    (samePlain : Verdict.answers plain = (before ++ after).map form)
    (sameWidened : Verdict.answers widened = (before ++ nothing :: after).map form)
    (nonempty : before ++ after ≠ [])
    (distinct : forall entry, entry ∈ before ++ after -> isDistinct (form entry)) :
    Verdict.breaks (request.merge window) plain = false ∧
      Verdict.breaks (request.merge window) widened = false ∧
        exists answer,
          Verdict.ofOutcomes (request.merge window) request.empty plain = .ok answer ∧
            Verdict.ofOutcomes (request.merge window) request.empty widened = .ok answer := by
  have merges := neutral.toMergesAs
  have inserted := Merge.running_insert neutral.closed neutral.left neutral.right nonempty distinct
  refine ⟨merges.breaks_eq_false samePlain, merges.breaks_eq_false sameWidened, ?_⟩
  cases sum : Merge.running join (before ++ after) with
  | none => exact absurd (Merge.running_eq_none_iff.mp sum) nonempty
  | some total =>
      have mergedPlain := merges.ofOutcomes_eq samePlain sum
      have mergedWidened := merges.ofOutcomes_eq sameWidened (inserted.trans sum)
      exact ⟨form total, mergedPlain, mergedWidened⟩

end Neutral

namespace ReadOperation

/-- The empty answer of every operation is neutral for the usual answers. -/
theorem exists_hasNeutral (operation : ReadOperation) (window : Duration) :
    exists (Entry : Type) (form : Entry -> operation.Answer) (join : Entry -> Entry -> Entry)
      (nothing : Entry),
      operation.request.HasNeutral window form join nothing operation.IsDistinct ∧
        forall answer, operation.IsUsual answer -> answer ∈ Set.range form := by
  cases operation with
  | labelValues label =>
      refine ⟨List String, id, Merge.labelValues, [], ?_, fun answer _ => ⟨answer, rfl⟩⟩
      exact ⟨Request.labelValues_mergesAs label window, rfl, fun _ _ => Merge.union_nodup _ _,
        Merge.nil_union, Merge.union_nil⟩
  | query text =>
      refine ⟨List InstantSample, .vector, Merge.vectors, [], ?_, ?_⟩
      · exact ⟨(Request.query_mergesResults text).mergesAs .vector window, rfl,
          fun first _ => Merge.vectors_distinct first _, Merge.nil_vectors,
          fun _ => Merge.vectors_nil _⟩
      · exact fun result isVector => Shape.exists_form isVector
  | queryRange text range =>
      refine ⟨List SampleStream, .matrix, Merge.matrices (Merge.windowMillis window), [], ?_, ?_⟩
      · exact ⟨(Request.queryRange_mergesResults text range).mergesAs .matrix window, rfl,
          fun first _ => Merge.matrices_distinct first _, Merge.nil_matrices, fun _ => rfl⟩
      · exact fun result isMatrix => Shape.exists_form isMatrix
  | series metrics =>
      refine ⟨List LabelSet, id, Merge.labelSets, [], ?_, fun answer _ => ⟨answer, rfl⟩⟩
      exact ⟨Request.series_mergesAs metrics window, rfl, fun _ _ => Merge.union_nodup _ _,
        Merge.nil_union, Merge.union_nil⟩

/-- Among usual answers the empty one may be put anywhere. -/
theorem ofOutcomes_insert_empty (operation : ReadOperation) (window : Duration)
    {plain widened : List (Except Fault operation.Answer)} {before after : List operation.Answer}
    (samePlain : Verdict.answers plain = before ++ after)
    (sameWidened : Verdict.answers widened = before ++ operation.request.empty :: after)
    (nonempty : Verdict.answers plain ≠ [])
    (usual : forall answer, answer ∈ Verdict.answers plain -> operation.IsUsual answer)
    (distinct : forall answer, answer ∈ Verdict.answers plain -> operation.IsDistinct answer) :
    let merge := operation.request.merge window
    let verdict := Verdict.ofOutcomes merge operation.request.empty
    Verdict.breaks merge plain = false ∧ Verdict.breaks merge widened = false ∧
      exists answer, verdict plain = .ok answer ∧ verdict widened = .ok answer := by
  rcases operation.exists_hasNeutral window with ⟨Entry, form, join, nothing, neutral, formed⟩
  rw [samePlain] at nonempty usual distinct
  have inForm : forall answers : List operation.Answer, answers ⊆ before ++ after ->
      answers ∈ Set.range (List.map form) := by
    intro answers among
    rw [Set.range_list_map]
    exact fun answer isAnswer => formed answer (usual answer (among isAnswer))
  rcases inForm before (List.subset_append_left before after) with ⟨entriesBefore, rfl⟩
  rcases inForm after (List.subset_append_right _ after) with ⟨entriesAfter, rfl⟩
  rw [← List.map_append] at samePlain nonempty distinct
  rw [neutral.empty_eq, ← List.map_cons, ← List.map_append] at sameWidened
  apply neutral.ofOutcomes_insert samePlain sameWidened
  · exact fun none => nonempty (congrArg (List.map form) none)
  · exact fun entry isEntry => distinct (form entry) (List.mem_map_of_mem isEntry)

/-- Results that can be merged in a row have one shape. -/
theorem shape_eq_of_foldlM {window : Duration} {first merged : QueryResult}
    {rest : List QueryResult} (folded : rest.foldlM (Request.mergeResults window) first = .ok merged)
    {result : QueryResult} (isLater : result ∈ rest) : result.shape = first.shape := by
  rw [Request.foldlM_mergeResults] at folded
  cases sum : rest.foldlM (Merge.results window) first with
  | error mismatch =>
      rw [sum] at folded
      cases folded
  | ok merged => exact Merge.foldlM_results_eq_ok_iff.mp ⟨merged, sum⟩ result isLater

theorem mismatch_of_shape_ne {request : Request QueryResult} (results : request.MergesResults)
    {window : Duration} {outcomes : List (Except Fault QueryResult)} {left right : QueryResult}
    (isLeft : left ∈ Verdict.answers outcomes) (isRight : right ∈ Verdict.answers outcomes)
    (different : left.shape ≠ right.shape) :
    exists fault, Verdict.ofOutcomes (request.merge window) request.empty outcomes =
      .error fault ∧ exists first second, request.merge window first second = .error fault := by
  cases someAnswer : Verdict.answers outcomes with
  | nil =>
      rw [someAnswer] at isLeft
      cases isLeft
  | cons first rest =>
      rw [Verdict.ofOutcomes_of_answers _ _ someAnswer]
      cases folded : rest.foldlM (request.merge window) first with
      | error fault => exact ⟨fault, rfl, Verdict.exists_merge_of_foldlM_error folded⟩
      | ok merged =>
          rw [results] at folded
          have shapeOf : forall result, result ∈ Verdict.answers outcomes ->
              result.shape = first.shape := by
            intro result isAnswer
            rw [someAnswer] at isAnswer
            rcases List.mem_cons.mp isAnswer with rfl | later
            · rfl
            · exact shape_eq_of_foldlM folded later
          exact absurd ((shapeOf left isLeft).trans (shapeOf right isRight).symm) different

/-- An unusual answer and the empty one do not go together. -/
theorem mismatch_of_unusual (operation : ReadOperation) {window : Duration}
    {outcomes : List (Except Fault operation.Answer)} {answer : operation.Answer}
    (isEmpty : operation.request.empty ∈ Verdict.answers outcomes)
    (isAnswer : answer ∈ Verdict.answers outcomes) (unusual : ¬ operation.IsUsual answer) :
    exists left right, Verdict.ofOutcomes (operation.request.merge window) operation.request.empty
      outcomes = .error (.shapeMismatch left right) := by
  have mismatch : exists fault, Verdict.ofOutcomes (operation.request.merge window)
      operation.request.empty outcomes = .error fault ∧
        exists first second, operation.request.merge window first second = .error fault := by
    cases operation with
    | labelValues label => exact absurd trivial unusual
    | query text =>
        exact mismatch_of_shape_ne (Request.query_mergesResults text) isAnswer isEmpty unusual
    | queryRange text range =>
        exact mismatch_of_shape_ne (Request.queryRange_mergesResults text range) isAnswer isEmpty
          unusual
    | series metrics => exact absurd trivial unusual
  rcases mismatch with ⟨fault, verdict, first, second, failed⟩
  rcases operation.shapeMismatch_of_merge failed with ⟨left, right, rfl⟩
  exact ⟨left, right, verdict⟩

end ReadOperation

namespace Respondent

variable {Answer : Type}

/-- The answer of a respondent, if it ends with one. -/
def answer? (request : Request Answer) (respondent : Respondent Answer) : Option Answer :=
  (respondent.ending request).answer?

/-- The answers of members do not depend on the indices of the members. -/
theorem answers_outcomesFrom (request : Request Answer) (index : Nat)
    (members : List (Respondent Answer)) :
    Verdict.answers (outcomesFrom request index members) = members.filterMap (answer? request) := by
  induction members generalizing index with
  | nil => rfl
  | cons member rest inductionHypothesis =>
      rw [outcomesFrom, List.filterMap_cons, answer?]
      cases member.ending request with
      | crashed message => exact inductionHypothesis (index + 1)
      | returned outcome =>
          cases outcome with
          | error fault => exact inductionHypothesis (index + 1)
          | ok answer => exact congrArg (List.cons answer) (inductionHypothesis (index + 1))

/-- Where answers divide, the members divide that gave them. -/
theorem exists_division_of_answers {request : Request Answer} {members : List (Respondent Answer)}
    {before after : List Answer} {answer : Answer}
    (same : members.filterMap (answer? request) = before ++ answer :: after) :
    exists sooner member later, members = sooner ++ member :: later ∧
      sooner.filterMap (answer? request) = before ∧ member.answer? request = some answer ∧
        later.filterMap (answer? request) = after := by
  rcases List.filterMap_eq_append_iff.mp same with ⟨sooner, others, rfl, isBefore, isOther⟩
  rcases List.filterMap_eq_cons_iff.mp isOther with ⟨silent, member, later, rfl, nothing, isAnswer, isAfter⟩
  refine ⟨sooner ++ silent, member, later, (List.append_assoc _ _ _).symm, ?_, isAnswer, isAfter⟩
  rw [List.filterMap_append, isBefore, List.filterMap_eq_nil_iff.mpr nothing, List.append_nil]

theorem mem_answers_outcomes {request : Request Answer} {members : List (Respondent Answer)}
    {answer : Answer} :
    answer ∈ Verdict.answers (outcomes request members) <->
      exists member, member ∈ members ∧ member.ending request = .returned (.ok answer) := by
  rw [outcomes, answers_outcomesFrom, List.mem_filterMap]
  simp only [answer?, Ending.answer?_eq_some_iff]

theorem forall_mem_answers_outcomes {request : Request Answer}
    {members : List (Respondent Answer)} {property : Answer -> Prop}
    (ofMembers : forall member answer, member ∈ members ->
      member.ending request = .returned (.ok answer) -> property answer) :
    forall answer, answer ∈ Verdict.answers (outcomes request members) -> property answer := by
  intro answer isAnswer
  rcases mem_answers_outcomes.mp isAnswer with ⟨member, isMember, answers⟩
  exact ofMembers member answer isMember answers

/-- One member more, which answers, adds its answer to those of the others. -/
theorem answers_outcomes_insert {request : Request Answer} {silent : Respondent Answer}
    {answer : Answer} (answers : silent.ending request = .returned (.ok answer))
    (before after : List (Respondent Answer)) :
    Verdict.answers (outcomes request (before ++ silent :: after)) =
      before.filterMap (answer? request) ++ answer :: after.filterMap (answer? request) := by
  have isAnswer : answer? request silent = some answer := Ending.answer?_eq_some_iff.mpr answers
  rw [outcomes, answers_outcomesFrom, List.filterMap_append, List.filterMap_cons_some isAnswer]

/-- One member more, which is done at once, takes no time when no merge fails. -/
theorem finishMillis_insert {request : Request Answer} {settings : FederationSettings}
    {silent : Respondent Answer} (atOnce : silent.finishMillis request = 0)
    {before after : List (Respondent Answer)}
    (whole : Verdict.breaks (request.merge settings.window) (outcomes request (before ++ after)) =
      false)
    (wholeWidened : Verdict.breaks (request.merge settings.window)
      (outcomes request (before ++ silent :: after)) = false) :
    (federation settings (before ++ silent :: after)).finishMillis request =
      (federation settings (before ++ after)).finishMillis request := by
  have lengths : forall members : List (Respondent Answer),
      (finishes request members).length = (outcomes request members).length := by
    intro members
    rw [finishes_eq_map, List.length_map, outcomes_length]
  rw [finishMillis, Verdict.delayMillis_of_whole _ (lengths _) wholeWidened, finishMillis,
    Verdict.delayMillis_of_whole _ (lengths _) whole, finishes_eq_map, finishes_eq_map,
    List.map_append, List.map_append, List.map_cons, atOnce, List.foldr_append, List.foldr_append,
    List.foldr_cons, Nat.zero_max]

end Respondent

/-- Wherever a member with nothing to say is put, it changes nothing of the answer of a federation in which
somebody answers, as long as the answers of the others repeat nothing and have the shape of the empty
answer.  If one of them has another shape, the call ends with a mismatch of shapes. -/
theorem federation_with_silent_member (operation : ReadOperation) (settings : FederationSettings)
    (before after : List (Respondent operation.Answer)) (silent : Backend)
    (nothing : silent.HasNothing operation)
    (someone : exists member answer, member ∈ before ++ after ∧
      member.ending operation.request = .returned (.ok answer))
    (distinct : forall member answer, member ∈ before ++ after ->
      member.ending operation.request = .returned (.ok answer) -> operation.IsDistinct answer) :
    let request := operation.request
    let plain := Respondent.federation settings (before ++ after)
    let widened :=
      Respondent.federation settings (before ++ silent.respondent request :: after)
    ((forall member answer, member ∈ before ++ after ->
          member.ending request = .returned (.ok answer) -> operation.IsUsual answer) ->
        widened.finishMillis request = plain.finishMillis request ∧
          exists answer, plain.EndsWith request (.ok answer) ∧
            widened.EndsWith request (.ok answer)) ∧
      ((exists member answer, member ∈ before ++ after ∧
          member.ending request = .returned (.ok answer) ∧ ¬ operation.IsUsual answer) ->
        exists left right, widened.EndsWith request (.error (.shapeMismatch left right))) := by
  intro request plain widened
  rcases nothing.answers with ⟨answersEmpty, atOnce⟩
  have widenedAnswers := Respondent.answers_outcomes_insert answersEmpty before after
  have plainAnswers : Verdict.answers (Respondent.outcomes request (before ++ after)) =
      before.filterMap (Respondent.answer? request) ++
        after.filterMap (Respondent.answer? request) := by
    rw [Respondent.outcomes, Respondent.answers_outcomesFrom, List.filterMap_append]
  constructor
  · intro usual
    have nonempty : Verdict.answers (Respondent.outcomes request (before ++ after)) ≠ [] := by
      rcases someone with ⟨member, answer, isMember, answers⟩
      exact List.ne_nil_of_mem (Respondent.mem_answers_outcomes.mpr ⟨member, isMember, answers⟩)
    have unmoved := operation.ofOutcomes_insert_empty settings.window plainAnswers widenedAnswers
      nonempty (Respondent.forall_mem_answers_outcomes usual)
      (Respondent.forall_mem_answers_outcomes distinct)
    rcases unmoved with ⟨whole, wholeWidened, answer, verdict, verdictWidened⟩
    refine ⟨Respondent.finishMillis_insert atOnce whole wholeWidened, answer, ?_, ?_⟩
    · exact Respondent.endsWith_of_ending (congrArg Ending.returned verdict)
    · exact Respondent.endsWith_of_ending (congrArg Ending.returned verdictWidened)
  · rintro ⟨member, answer, isMember, answers, unusual⟩
    have isMemberOfAll : member ∈ before ++ silent.respondent request :: after :=
      ((List.sublist_cons_self _ after).append_left before).subset isMember
    have isAnswer := Respondent.mem_answers_outcomes.mpr ⟨member, isMemberOfAll, answers⟩
    have isEmpty : request.empty ∈ Verdict.answers
        (Respondent.outcomes request (before ++ silent.respondent request :: after)) := by
      rw [widenedAnswers]
      exact List.mem_append_right _ List.mem_cons_self
    rcases operation.mismatch_of_unusual isEmpty isAnswer unusual with ⟨left, right, verdict⟩
    exact ⟨left, right, Respondent.endsWith_of_ending (congrArg Ending.returned verdict)⟩

/-- A federation without members behind a mock that answers with a vector. -/
theorem federation_with_silent_member_behind :
    let operation := ReadOperation.query "up"
    let settings : FederationSettings := ⟨Duration.zero, [], true⟩
    let result : QueryResult := .vector [⟨.empty, ⟨0, 1⟩⟩]
    let mock : Backend := .mock { Mock.silent "a" with query := result }
    ((Backend.federation settings [mock, .federation settings []]).call operation.request
      none).ending = .returned (.ok result) := by
  intro operation settings result mock
  let member := mock.respondent operation.request
  have answers : member.ending operation.request = .returned (.ok result) := rfl
  have onlyAnswer : forall (other : Respondent QueryResult) (answer : QueryResult),
      other ∈ [member] ++ [] -> other.ending operation.request = .returned (.ok answer) ->
        answer = result := by
    intro other answer isMember ends
    rw [List.append_nil, List.mem_singleton] at isMember
    rw [isMember, answers] at ends
    cases ends
    rfl
  have unmoved := federation_with_silent_member operation settings [member] []
    (.federation settings []) trivial ⟨member, result, List.mem_cons_self, answers⟩
    (by
      intro other answer isMember ends
      rw [onlyAnswer other answer isMember ends]
      exact List.nodup_singleton _)
  rcases unmoved.1 (by
      intro other answer isMember ends
      rw [onlyAnswer other answer isMember ends]
      rfl) with ⟨_, answer, plainEnds, widenedEnds⟩
  have plainCall := (plainEnds.inCalls (Backend.federation settings [mock]) rfl).1
  have widenedCall := (widenedEnds.inCalls
    (Backend.federation settings [mock, .federation settings []]) rfl).1
  have answer_eq : answer = result := (Except.ok.inj (Ending.returned.inj plainCall)).symm
  rw [widenedCall, answer_eq]

/-- A federation without members in front of a mock that answers with a scalar. -/
theorem federation_moved_by_silent_member :
    let operation := ReadOperation.query "1"
    let settings : FederationSettings := ⟨Duration.zero, [], true⟩
    let silent := Backend.federation settings []
    let mock : Backend := .mock { Mock.silent "a" with query := .scalar ⟨0, 1⟩ }
    silent.HasNothing operation ∧ operation.IsDistinct (.scalar ⟨0, 1⟩) ∧
      ((Backend.federation settings [mock]).call operation.request none).ending =
        .returned (.ok (.scalar ⟨0, 1⟩)) ∧
      ((Backend.federation settings [silent, mock]).call operation.request none).ending =
        .returned (.error (.shapeMismatch .vector .scalar)) :=
  ⟨trivial, trivial, rfl, rfl⟩

end QueryFederation
