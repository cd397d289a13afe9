import QueryFederation.Proofs.Calls.Snapshots

/-!
# Selecting series by the names of their metrics

A lookup of series may name the metrics that it is interested in.  Each snapshot selects among its own
series, before any lists are united and before any repetition is dropped.  The caller could as well ask for
all series and select among them: the answers are the same, list by list.

This rests on the selection looking at one label set at a time.  It holds also where nothing is united, in
federations of one member, whose answers keep the repetitions of the snapshot.
-/

namespace QueryFederation

open Merge

namespace LabelSet

/-- Whether a label set has the name of one of some metrics. -/
def IsOfOneOf (metrics : List String) (labels : LabelSet) : Prop :=
  exists name, name ∈ metrics ∧ metricName? labels = some name

instance (metrics : List String) (labels : LabelSet) : Decidable (IsOfOneOf metrics labels) :=
  inferInstanceAs (Decidable (exists name, name ∈ metrics ∧ metricName? labels = some name))

theorem belongsTo_nil (labels : LabelSet) : belongsTo [] labels = true := rfl

theorem belongsTo_iff {metrics : List String} (nonempty : metrics ≠ []) (labels : LabelSet) :
    belongsTo metrics labels = true <-> labels.IsOfOneOf metrics := by
  unfold belongsTo IsOfOneOf
  rw [List.isEmpty_eq_false_iff.mpr nonempty, Bool.false_or]
  cases metricName? labels with
  | none => simp
  | some name => simp

end LabelSet

/-- The label sets of some metrics, in their order. -/
def selected (metrics : List String) (series : List LabelSet) : List LabelSet :=
  series.filter fun labels => decide (labels.IsOfOneOf metrics)

theorem mem_selected {metrics : List String} {series : List LabelSet} {labels : LabelSet} :
    labels ∈ selected metrics series <-> labels ∈ series ∧ labels.IsOfOneOf metrics := by
  rw [selected, List.mem_filter, decide_eq_true_iff]

theorem selected_union (metrics : List String) (first second : List LabelSet) :
    selected metrics (union first second) =
      union (selected metrics first) (selected metrics second) :=
  filter_union _ first second

namespace Fixture

theorem matchingSeries_nil (snapshot : Fixture) : snapshot.matchingSeries [] = snapshot.series :=
  List.filter_eq_self.mpr fun labels _ => labels.belongsTo_nil

theorem matchingSeries_eq (snapshot : Fixture) {metrics : List String} (nonempty : metrics ≠ []) :
    snapshot.matchingSeries metrics = selected metrics snapshot.series := by
  apply List.filter_congr
  intro labels _
  rw [Bool.eq_iff_iff, decide_eq_true_iff]
  exact labels.belongsTo_iff nonempty

end Fixture

namespace Backend

/-- Whether a backend is a snapshot. -/
def IsSnapshot (backend : Backend) : Prop :=
  exists name snapshot, backend = fixture name snapshot

/-- What a federation answers whose members all answer a lookup of series. -/
theorem ofOutcomes_series (metrics : List String) (window : Duration)
    (answers : List (List LabelSet)) :
    Verdict.ofOutcomes ((Request.series metrics).merge window) [] (answers.map .ok) =
      .ok ((running union answers).getD []) := by
  have merges := Request.series_mergesAs metrics window
  have same : Verdict.answers (answers.map fun answer => (.ok answer : Except Fault _)) =
      answers.map id := (answers_map_ok answers).trans (List.map_id answers).symm
  cases sum : running union answers with
  | some merged => exact merges.ofOutcomes_eq same sum
  | none =>
      rw [running_eq_none_iff.mp sum]
      rfl

mutual

/-- What a tree of snapshots answers to a lookup of the series of some metrics is selected from what it
answers to a lookup of all series. -/
theorem ending_series (backend : Backend)
    (snapshots : forall leaf, leaf ∈ backend.leaves -> leaf.IsSnapshot) :
    exists all, (backend.respondent (Request.series [])).ending (Request.series []) =
        .returned (.ok all) ∧
      forall metrics, metrics ≠ [] ->
        (backend.respondent (Request.series metrics)).ending (Request.series metrics) =
          .returned (.ok (selected metrics all)) := by
  cases backend with
  | mock scripted =>
      rcases snapshots _ List.mem_cons_self with ⟨_, _, impossible⟩
      cases impossible
  | crashing message =>
      rcases snapshots _ List.mem_cons_self with ⟨_, _, impossible⟩
      cases impossible
  | fixture name snapshot =>
      have answers {metrics : List String} {series : List LabelSet}
          (matching : snapshot.matchingSeries metrics = series) :
          ((fixture name snapshot).respondent (Request.series metrics)).ending
            (Request.series metrics) = .returned (.ok series) :=
        congrArg (fun series => Ending.returned (.ok series)) matching
      refine ⟨snapshot.series, answers snapshot.matchingSeries_nil, ?_⟩
      exact fun metrics nonempty => answers (snapshot.matchingSeries_eq nonempty)
  | federation settings members =>
      rcases outcomes_series members snapshots 0 with ⟨answers, allOutcomes, someOutcomes⟩
      have ends {metrics : List String} {series : List (List LabelSet)}
          (outcomes : Respondent.outcomes (Request.series metrics)
            (respondents (Request.series metrics) members) = series.map .ok) :
          ((federation settings members).respondent (Request.series metrics)).ending
            (Request.series metrics) = .returned (.ok ((running union series).getD [])) := by
        rw [respondent, Respondent.ending, ← ofOutcomes_series metrics settings.window, ← outcomes]
        rfl
      refine ⟨_, ends allOutcomes, ?_⟩
      intro metrics nonempty
      rw [ends (someOutcomes metrics nonempty), running_map (selected_union metrics)]
      cases running union answers <;> rfl

theorem outcomes_series (members : List Backend)
    (snapshots : forall leaf, leaf ∈ leavesOfMembers members -> leaf.IsSnapshot) (index : Nat) :
    exists answers : List (List LabelSet),
      Respondent.outcomesFrom (Request.series []) index (respondents (Request.series []) members) =
        answers.map .ok ∧
      forall metrics, metrics ≠ [] ->
        Respondent.outcomesFrom (Request.series metrics) index
            (respondents (Request.series metrics) members) =
          (answers.map (selected metrics)).map .ok := by
  cases members with
  | nil => exact ⟨[], rfl, fun _ _ => rfl⟩
  | cons member rest =>
      rw [leavesOfMembers] at snapshots
      rcases ending_series member
        (fun leaf isLeaf => snapshots leaf (List.mem_append_left _ isLeaf)) with
        ⟨first, endsAll, endsSome⟩
      rcases outcomes_series rest
        (fun leaf isLeaf => snapshots leaf (List.mem_append_right _ isLeaf)) (index + 1) with
        ⟨answers, outcomesAll, outcomesSome⟩
      refine ⟨first :: answers, ?_, ?_⟩
      · rw [respondents, Respondent.outcomesFrom, endsAll, outcomesAll]
        rfl
      · intro metrics nonempty
        rw [respondents, Respondent.outcomesFrom, endsSome metrics nonempty,
          outcomesSome metrics nonempty]
        rfl

end

/-- A lookup of the series of some metrics in a tree of snapshots is answered with those among all series
of the tree that have the name of one of the metrics, in the same order.  So it does not matter in which
order the metrics are named and how often, and a lookup of more metrics finds the series of each. -/
theorem series_of_metrics (backend : Backend)
    (snapshots : forall leaf, leaf ∈ backend.leaves -> leaf.IsSnapshot) :
    exists answer : List String -> List LabelSet,
      (forall metrics, (backend.respondent (Request.series metrics)).EndsWith (Request.series metrics)
        (.ok (answer metrics))) ∧
      (forall metrics, metrics ≠ [] -> answer metrics = (answer []).filter fun labels =>
        decide (exists name, name ∈ metrics ∧ labels.get? LabelSet.metricLabel = some name)) ∧
      (forall metrics other, metrics ≠ [] -> (forall name, name ∈ metrics <-> name ∈ other) ->
        answer metrics = answer other) ∧
      forall metrics other, metrics ≠ [] -> other ≠ [] -> forall labels,
        labels ∈ answer (metrics ++ other) <-> labels ∈ answer metrics ∨ labels ∈ answer other := by
  rcases ending_series backend snapshots with ⟨all, endsAll, endsSome⟩
  let answer (metrics : List String) : List LabelSet :=
    if metrics = [] then all else selected metrics all
  have answer_eq {metrics : List String} (nonempty : metrics ≠ []) :
      answer metrics = selected metrics all := if_neg nonempty
  refine ⟨answer, ?_, ?_, ?_, ?_⟩
  · intro metrics
    apply Respondent.endsWith_of_ending
    by_cases none : metrics = []
    · rw [none]
      exact endsAll
    · rw [answer_eq none]
      exact endsSome metrics none
  · exact fun metrics nonempty => answer_eq nonempty
  · intro metrics other nonempty same
    have otherNonempty : other ≠ [] := by
      rcases List.exists_mem_of_ne_nil metrics nonempty with ⟨name, isNamed⟩
      exact List.ne_nil_of_mem ((same name).mp isNamed)
    rw [answer_eq nonempty, answer_eq otherNonempty]
    apply List.filter_congr
    intro labels _
    exact decide_eq_decide.mpr (exists_congr fun name => and_congr_left fun _ => same name)
  · intro metrics other nonempty otherNonempty labels
    have bothNonempty : metrics ++ other ≠ [] := List.append_ne_nil_of_left_ne_nil nonempty other
    rw [answer_eq nonempty, answer_eq otherNonempty, answer_eq bothNonempty, mem_selected,
      mem_selected, mem_selected, ← and_or_left]
    apply and_congr_right
    intro _
    simp only [LabelSet.IsOfOneOf, List.mem_append, or_and_right, exists_or]

/-- A federation with one member, which repeats a series, beside a snapshot with the same series. -/
theorem series_of_metrics_repeated :
    let up : LabelSet := NameMap.empty.insert "__name__" "up"
    let down : LabelSet := NameMap.empty.insert "__name__" "down"
    let snapshot : List LabelSet -> Backend := fun series =>
      fixture "a" { Fixture.empty with series := series }
    let settings : FederationSettings := ⟨Duration.zero, [], true⟩
    let tree := federation settings [federation settings [snapshot [down, up, up]], snapshot [up]]
    (forall leaf, leaf ∈ tree.leaves -> leaf.IsSnapshot) ∧ ["up", "up"] ≠ [] ∧
      (tree.call (Request.series ["up", "up"]) none).ending = .returned (.ok [up]) := by
  intro up down snapshot settings tree
  have snapshots : forall leaf, leaf ∈ tree.leaves -> leaf.IsSnapshot := by
    change forall leaf, leaf ∈ [snapshot [down, up, up], snapshot [up]] -> leaf.IsSnapshot
    simp only [List.forall_mem_cons]
    exact ⟨⟨_, _, rfl⟩, ⟨_, _, rfl⟩, nofun⟩
  have nonempty : ["up", "up"] ≠ [] := List.cons_ne_nil _ _
  rcases series_of_metrics tree snapshots with ⟨answer, ends, selects, _⟩
  have all : (tree.call (Request.series []) none).ending = .returned (.ok [down, up]) := rfl
  have answerAll : answer [] = [down, up] := by
    have returned := ((ends []).inCalls tree rfl).1.symm.trans all
    injection returned with same
    exact Except.ok.inj same
  refine ⟨snapshots, nonempty, ?_⟩
  rw [((ends ["up", "up"]).inCalls tree rfl).1, selects _ nonempty, answerAll]
  rfl

end Backend
end QueryFederation
