import QueryFederation.Proofs.Calls.Silence
import QueryFederation.Proofs.Merge.Precedence

/-!
# Whose samples an instant query shows

The members of a federation answer in their order, however long each of them takes.  Members that fail or
crash are passed over, whichever and however many they are.  If the others answer an instant query with
vectors, each series is shown as the first of these members has it that has it at all.
-/

namespace QueryFederation

/-- The sample that a result shows of a series. -/
def QueryResult.sampleOf? (metric : LabelSet) : QueryResult -> Option Sample
  | vector series => Merge.sampleOf? metric series
  | _ => none

namespace Respondent

/-- That a vector shows every series as the first respondent has it that answers and has it. -/
structure ShowsFirst (request : Request QueryResult) (members : List (Respondent QueryResult))
    (shown : List InstantSample) : Prop where
  /-- A series that is shown is one of a member's, and no member before has answered with it. -/
  ofFirst : forall series, series ∈ shown ->
    exists before member after vector, members = before ++ member :: after ∧
      member.answer? request = some (.vector vector) ∧ series ∈ vector ∧
        forall earlier other, earlier ∈ before -> earlier.answer? request = some (.vector other) ->
          series.metric ∉ other.map InstantSample.metric
  /-- What is shown of a series is what the first member shows that shows it. -/
  sampleOf?_eq : forall metric, Merge.sampleOf? metric shown =
    members.findSome? fun member => (member.answer? request).bind (QueryResult.sampleOf? metric)

section Vectors

variable {request : Request QueryResult} {members : List (Respondent QueryResult)}
  {vectors : List (List InstantSample)}

theorem findSome?_sampleOf? (same : members.filterMap (answer? request) = vectors.map .vector)
    (metric : LabelSet) :
    (members.findSome? fun member => (member.answer? request).bind (QueryResult.sampleOf? metric)) =
      vectors.findSome? (Merge.sampleOf? metric) := by
  induction members generalizing vectors with
  | nil =>
      rw [List.map_eq_nil_iff.mp same.symm]
      rfl
  | cons member rest inductionHypothesis =>
      rw [List.findSome?_cons]
      cases isAnswer : member.answer? request with
      | none =>
          rw [List.filterMap_cons_none isAnswer] at same
          exact inductionHypothesis same
      | some answer =>
          rw [List.filterMap_cons_some isAnswer] at same
          rcases List.map_eq_cons_iff.mp same.symm with ⟨vector, later, rfl, rfl, isLater⟩
          rw [List.findSome?_cons, ← inductionHypothesis isLater.symm]
          rfl

theorem showsFirst_of_vectors {first : List InstantSample} {rest : List (List InstantSample)}
    (same : members.filterMap (answer? request) = (first :: rest).map .vector) :
    ShowsFirst request members (Merge.firstSeries first rest) := by
  rw [← Merge.foldl_vectors_eq_firstSeries]
  constructor
  case ofFirst =>
    intro series isShown
    rcases Merge.exists_first_of_mem_foldl isShown with ⟨before, vector, after, divided, has, missing⟩
    rw [divided, List.map_append, List.map_cons] at same
    rcases exists_division_of_answers same with ⟨sooner, member, later, rfl, isBefore, isAnswer, _⟩
    refine ⟨sooner, member, later, vector, rfl, isAnswer, has, ?_⟩
    intro earlier other isSooner answers
    have isEarlier : QueryResult.vector other ∈ before.map .vector :=
      isBefore ▸ List.mem_filterMap.mpr ⟨earlier, isSooner, answers⟩
    exact missing other ((List.mem_map_of_injective (Shape.form_injective .vector)).mp isEarlier)
  case sampleOf?_eq =>
    intro metric
    rw [Merge.sampleOf?_foldl, findSome?_sampleOf? same]

end Vectors

end Respondent

/-- Vectors, one after the other, come to the first one as it is and behind it the new series of the others,
so that each series has the sample of the first vector that has it, under every window.  A federation whose
members answer an instant query with vectors, as far as they answer, ends with what these come to, and so
shows each series as the first member has it that answers and has it. -/
theorem series_shown_as_first_has_them :
    (forall (first : List InstantSample) (rest : List (List InstantSample)),
      let shown := Merge.firstSeries first rest
      (forall window, Merge.fold window ((first :: rest).map .vector) = .ok (some (.vector shown))) ∧
        (forall metric, Merge.sampleOf? metric shown =
          (first :: rest).findSome? (Merge.sampleOf? metric)) ∧
        ((first.map InstantSample.metric).Nodup -> (shown.map InstantSample.metric).Nodup)) ∧
      forall (text : String) (settings : FederationSettings) (members : List (Respondent QueryResult))
        (first : List InstantSample) (rest : List (List InstantSample)),
        let request := Request.query text
        let shown := Merge.firstSeries first rest
        members.filterMap (Respondent.answer? request) = (first :: rest).map .vector ->
          (Respondent.federation settings members).EndsWith request (.ok (.vector shown)) ∧
            Respondent.ShowsFirst request members shown := by
  constructor
  · intro first rest shown
    refine ⟨fun window => Merge.fold_vectors window first rest, ?_,
      fun distinct => Merge.firstSeries_distinct distinct rest⟩
    intro metric
    rw [← Merge.sampleOf?_foldl, Merge.foldl_vectors_eq_firstSeries]
  · intro text settings members first rest request shown same
    refine ⟨Respondent.endsWith_of_ending (congrArg Ending.returned ?_),
      Respondent.showsFirst_of_vectors same⟩
    have merges := (Request.query_mergesResults text).mergesAs .vector settings.window
    have folded : Merge.running Merge.vectors (first :: rest) = some shown :=
      congrArg some (Merge.foldl_vectors_eq_firstSeries first rest)
    exact merges.ofOutcomes_eq ((Respondent.answers_outcomesFrom request 0 members).trans same) folded

/-- A member that fails, two that share a series, and between them one that breaks down, under a window of an
hour.  The slower of the two comes first and has the older sample. -/
theorem series_shown_as_first_has_them_behind_failures :
    let up : LabelSet := NameMap.empty.insert "job" "up"
    let down : LabelSet := NameMap.empty.insert "job" "down"
    let first : List InstantSample := [⟨up, ⟨1000, 1⟩⟩]
    let second : List InstantSample := [⟨down, ⟨1001, 2⟩⟩, ⟨up, ⟨2000, 3⟩⟩, ⟨down, ⟨1002, 4⟩⟩]
    let failing := Backend.mock { Mock.silent "a" with failure := some "down" }
    let slow := Backend.mock { Mock.silent "b" with query := .vector first, delayMillis := 20 }
    let quick := Backend.mock { Mock.silent "c" with query := .vector second }
    let members := [failing, slow, .crashing "lost", quick]
    let settings : FederationSettings := ⟨Duration.ofSeconds 3600, [], false⟩
    let shown : List InstantSample := [⟨up, ⟨1000, 1⟩⟩, ⟨down, ⟨1001, 2⟩⟩]
    ((Backend.federation settings members).call (Request.query "up") none).ending =
        .returned (.ok (.vector shown)) ∧
      Respondent.ShowsFirst (Request.query "up") (members.map (Backend.respondent (Request.query "up")))
        shown ∧
      (shown.map InstantSample.metric).Nodup := by
  intro up down first second failing slow quick members settings shown
  let request := Request.query "up"
  have shown_eq : Merge.firstSeries first [second] = shown := by decide
  have answers : (members.map (Backend.respondent request)).filterMap (Respondent.answer? request) =
      [first, second].map .vector := rfl
  have called := series_shown_as_first_has_them.2 "up" settings (members.map (Backend.respondent request))
    first [second] answers
  have distinct := (series_shown_as_first_has_them.1 first [second]).2.2 (List.nodup_singleton up)
  rw [shown_eq] at called distinct
  exact ⟨(called.1.inCalls (Backend.federation settings members) rfl).1, called.2, distinct⟩

end QueryFederation
