import QueryFederation.Proofs.Merge.Occurrences
import QueryFederation.Proofs.Merge.Running
import QueryFederation.Proofs.Merge.Streams

/-!
# Merging two results at a time

Many vectors, or many matrices, may be merged two at a time in any way.  Which series there are in the end
does not depend on the way: they are the series of all the results, each of them once.  Nor does their
order, as long as the results themselves stay in their order: it is that of first occurrence.

The results must not repeat a series themselves.  A vector that comes first is kept as it is, so what it
repeats would stay repeated, and a way of merging decides which vectors come first.
-/

namespace QueryFederation

/-- The label sets of the series that a result carries, in their order. -/
def QueryResult.metrics : QueryResult -> List LabelSet
  | vector series => series.map InstantSample.metric
  | matrix series => series.map SampleStream.metric
  | scalar _ => []
  | string _ => []

/-- Whether the results of a shape carry series. -/
def Shape.HasSeries (shape : Shape) : Prop :=
  shape = .vector ∨ shape = .matrix

namespace Merge

/-! ## The series of two results -/

section Distinct

variable {Entry : Type} [DecidableEq Entry]

theorem unmetBy_id_eq_eraseDups (met entries : List Entry) :
    unmetBy id met entries = (entries.filter fun entry => decide (entry ∉ met)).eraseDups :=
  unmetBy_eq_eraseDupsBy id met entries

/-- Each entry is kept where it occurs first. -/
theorem distinct_eq_eraseDups (entries : List Entry) : distinct entries = entries.eraseDups := by
  rw [distinct_eq_unmetBy, unmetBy_id_eq_eraseDups]
  congr 1
  exact List.filter_eq_self.mpr (by simp)

theorem distinct_nodup (entries : List Entry) : (distinct entries).Nodup := by
  have nodup := unmetBy_distinct id [] entries
  rwa [List.map_id, ← distinct_eq_unmetBy] at nodup

/-- Repetitions may be dropped before two lists are united. -/
theorem union_distinct (first second : List Entry) :
    union (distinct first) (distinct second) = distinct (first ++ second) := by
  have sameMet : unmetBy id (distinct first) (distinct second) = unmetBy id first second := by
    rw [unmetBy_congr (fun entry => mem_distinct) (distinct second), distinct_eq_unmetBy second]
    exact unmetBy_unmetBy (by intro entry known; cases known) second
  rw [union_eq, distinct_of_nodup (distinct_nodup first), sameMet, ← union_eq]
  rfl

end Distinct

theorem vectors_metrics (first second : List InstantSample) :
    (vectors first second).map InstantSample.metric =
      first.map InstantSample.metric ++
        unmetBy id (first.map InstantSample.metric) (second.map InstantSample.metric) := by
  have keys (met : List LabelSet) (series : List InstantSample) :
      (unmetBy InstantSample.metric met series).map InstantSample.metric =
        unmetBy id met (series.map InstantSample.metric) := by
    induction series generalizing met with
    | nil => rfl
    | cons entry rest inductionHypothesis =>
        rw [List.map_cons, unmetBy, unmetBy, id_eq]
        split
        · exact inductionHypothesis met
        · rw [List.map_cons, inductionHypothesis]
  rw [vectors_eq, List.map_append, keys]

theorem matrices_metrics (window : Int) (first second : List SampleStream) :
    (matrices window first second).map SampleStream.metric =
      first.map SampleStream.metric ++
        unmetBy id (first.map SampleStream.metric) (second.map SampleStream.metric) := by
  unfold matrices
  induction second generalizing first with
  | nil => exact (List.append_nil _).symm
  | cons stream rest inductionHypothesis =>
      rw [List.foldl_cons, inductionHypothesis, addStream_metrics, List.map_cons, unmetBy, id_eq]
      split
      · rfl
      · rw [List.append_assoc, List.singleton_append]
        congr 2
        exact unmetBy_congr (fun metric => by simp [or_comm]) _

/-- Results of one shape with series are merged into a result of this shape, whose label sets are those
of both in order of first occurrence. -/
theorem results_metrics {shape : Shape} (hasSeries : shape.HasSeries) (window : Duration)
    {first second : QueryResult} (isFirst : first.shape = shape) (isSecond : second.shape = shape)
    (distinct : first.metrics.Nodup) :
    exists merged, results window first second = .ok merged ∧ merged.shape = shape ∧
      merged.metrics = union first.metrics second.metrics := by
  rw [union_eq, distinct_of_nodup distinct]
  rcases hasSeries with rfl | rfl
  · cases first <;> cases isFirst
    cases second <;> cases isSecond
    exact ⟨_, rfl, rfl, vectors_metrics _ _⟩
  · cases first <;> cases isFirst
    cases second <;> cases isSecond
    exact ⟨_, rfl, rfl, matrices_metrics _ _ _⟩

/-! ## The series of many results -/

/-- A way to merge results two at a time, each time under a window. -/
inductive Bracketing where
  | single (result : QueryResult)
  | pair (window : Duration) (first second : Bracketing)

namespace Bracketing

/-- The results that are merged, from left to right. -/
def inputs : Bracketing -> List QueryResult
  | single result => [result]
  | pair _ first second => first.inputs ++ second.inputs

/-- What the results come to. -/
def merged : Bracketing -> Except Mismatch QueryResult
  | single result => .ok result
  | pair window first second => do results window (← first.merged) (← second.merged)

/-- The way in which a federation merges: one result after the other into what the earlier ones have
come to. -/
def leftward (window : Duration) (first : QueryResult) (rest : List QueryResult) : Bracketing :=
  rest.foldl (fun sofar result => pair window sofar (single result)) (single first)

theorem merged_leftward (window : Duration) (first : QueryResult) (rest : List QueryResult) :
    (leftward window first rest).merged.map some = fold window (first :: rest) := by
  have folded (sofar : Bracketing) : (rest.foldl (fun sofar result =>
      pair window sofar (single result)) sofar).merged =
        sofar.merged.bind fun first => rest.foldlM (results window) first := by
    induction rest generalizing sofar with
    | nil => cases reached : sofar.merged <;> simp [reached, Except.bind, pure, Except.pure]
    | cons result rest inductionHypothesis =>
        rw [List.foldl_cons, inductionHypothesis, merged]
        cases sofar.merged <;> rfl
  rw [leftward, folded]
  rfl

theorem inputs_leftward (window : Duration) (first : QueryResult) (rest : List QueryResult) :
    (leftward window first rest).inputs = first :: rest := by
  have folded (sofar : Bracketing) : (rest.foldl (fun sofar result =>
      pair window sofar (single result)) sofar).inputs = sofar.inputs ++ rest := by
    induction rest generalizing sofar with
    | nil => exact (List.append_nil _).symm
    | cons result rest inductionHypothesis =>
        rw [List.foldl_cons, inductionHypothesis, inputs, inputs, List.append_assoc]
        rfl
  rw [leftward, folded]
  rfl

/-- What results without repetitions come to, merged in any way, has their label sets in order of first
occurrence. -/
theorem merged_metrics {shape : Shape} (hasSeries : shape.HasSeries) (bracketing : Bracketing)
    (ofShape : forall result, result ∈ bracketing.inputs -> result.shape = shape)
    (noRepeats : forall result, result ∈ bracketing.inputs -> result.metrics.Nodup) :
    exists merged, bracketing.merged = .ok merged ∧ merged.shape = shape ∧
      merged.metrics = distinct (bracketing.inputs.flatMap QueryResult.metrics) := by
  induction bracketing with
  | single result =>
      have nodup := noRepeats result (List.mem_singleton.mpr rfl)
      refine ⟨result, rfl, ofShape result (List.mem_singleton.mpr rfl), ?_⟩
      rw [inputs, List.flatMap_singleton, distinct_of_nodup nodup]
  | pair window first second firstHypothesis secondHypothesis =>
      simp only [inputs, List.forall_mem_append] at ofShape noRepeats
      rcases firstHypothesis ofShape.1 noRepeats.1 with ⟨left, isLeft, leftShape, leftMetrics⟩
      rcases secondHypothesis ofShape.2 noRepeats.2 with ⟨right, isRight, rightShape, rightMetrics⟩
      have leftNodup : left.metrics.Nodup := leftMetrics ▸ distinct_nodup _
      rcases results_metrics hasSeries window leftShape rightShape leftNodup with
        ⟨both, isBoth, bothShape, bothMetrics⟩
      refine ⟨both, ?_, bothShape, ?_⟩
      · rw [merged, isLeft, isRight]
        exact isBoth
      · rw [bothMetrics, leftMetrics, rightMetrics, union_distinct, inputs, List.flatMap_append]

/-- Vectors, or matrices, that repeat no series can be merged in any order and in any grouping, under any
windows.  The series of what they come to are always those of all of them, each one once; and in whatever
grouping, they stand in the order of first occurrence if the results are in their order.  Merging each
result into what the earlier ones have come to is one of the groupings. -/
theorem metrics_independent_of_bracketing {shape : Shape} (hasSeries : shape.HasSeries)
    {partials : List QueryResult} (nonempty : partials ≠ [])
    (ofShape : forall result, result ∈ partials -> result.shape = shape)
    (noRepeats : forall result, result ∈ partials -> result.metrics.Nodup) :
    (forall bracketing : Bracketing, bracketing.inputs.Perm partials ->
      exists merged, bracketing.merged = .ok merged ∧ merged.shape = shape ∧ merged.metrics.Nodup ∧
        (forall metric, metric ∈ merged.metrics <->
          exists result, result ∈ partials ∧ metric ∈ result.metrics) ∧
        (bracketing.inputs = partials ->
          merged.metrics = (partials.flatMap QueryResult.metrics).eraseDups)) ∧
      forall window reordered, reordered.Perm partials ->
        exists bracketing : Bracketing, bracketing.inputs = reordered ∧
          fold window reordered = bracketing.merged.map some := by
  constructor
  · intro bracketing perm
    rcases merged_metrics hasSeries bracketing
      (fun result isInput => ofShape result (perm.mem_iff.mp isInput))
      (fun result isInput => noRepeats result (perm.mem_iff.mp isInput)) with
      ⟨merged, isMerged, mergedShape, metrics⟩
    refine ⟨merged, isMerged, mergedShape, metrics ▸ distinct_nodup _, ?_, ?_⟩
    · intro metric
      rw [metrics, mem_distinct, List.mem_flatMap]
      exact exists_congr fun result => and_congr_left fun _ => perm.mem_iff
    · rintro rfl
      rw [metrics, distinct_eq_eraseDups]
  · intro window reordered perm
    cases reordered with
    | nil => exact absurd perm.nil_eq.symm nonempty
    | cons first rest =>
        exact ⟨leftward window first rest, inputs_leftward window first rest,
          (merged_leftward window first rest).symm⟩

/-- Three matrices that share series, the last two merged first. -/
theorem metrics_independent_of_bracketing_replicas :
    let labels : String -> LabelSet := fun job => NameMap.empty.insert "job" job
    let replica : List String -> QueryResult := fun jobs =>
      .matrix (jobs.map fun job => ⟨labels job, [⟨0, 1⟩]⟩)
    let partials := [replica ["node", "api"], replica ["db", "node"], replica ["api", "db"]]
    let bracketing := pair (Duration.ofSeconds 5) (single (replica ["node", "api"]))
      (pair Duration.zero (single (replica ["db", "node"])) (single (replica ["api", "db"])))
    Shape.matrix.HasSeries ∧ partials ≠ [] ∧
      (forall result, result ∈ partials -> result.shape = .matrix) ∧
      (forall result, result ∈ partials -> result.metrics.Nodup) ∧
      bracketing.inputs.Perm partials ∧
      exists merged, bracketing.merged = .ok merged ∧
        merged.metrics = ["node", "api", "db"].map labels := by
  intro labels replica partials bracketing
  have ofShape : forall result, result ∈ partials -> result.shape = .matrix := by decide
  have noRepeats : forall result, result ∈ partials -> result.metrics.Nodup := by decide
  have perm : bracketing.inputs.Perm partials := .refl _
  have nonempty : partials ≠ [] := List.cons_ne_nil _ _
  have independent := metrics_independent_of_bracketing (Or.inr rfl) nonempty ofShape noRepeats
  rcases independent.1 bracketing perm with ⟨merged, isMerged, _, _, _, inOrder⟩
  refine ⟨Or.inr rfl, nonempty, ofShape, noRepeats, perm, merged, isMerged, ?_⟩
  rw [inOrder rfl]
  decide

end Bracketing

end Merge
end QueryFederation
