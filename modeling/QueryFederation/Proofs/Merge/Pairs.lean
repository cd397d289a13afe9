import QueryFederation.Proofs.Merge.Bracketing
import QueryFederation.Proofs.Merge.Reordering
import QueryFederation.Proofs.Merge.Sources

/-!
# Two matrices

What two matrices come to can be said without the procedure.  The label sets of the first one stand in
front, and those that are new in the second one follow where they occur first.  The samples of each series
are merged from what the first matrix holds of it and all that the second one holds of it, in this order.

Which of two replicas is the first one makes little difference.  The order of the series depends on it, and
so does the value that is kept for a timestamp that both of them have.  The timestamps do not, because they
are chosen from the timestamps of both replicas together.
-/

namespace QueryFederation
namespace Merge

/-! ## What a merged matrix holds of each series -/

/-- Merging streams into what is held of a series, if anything is, is a running merge. -/
theorem foldl_extendWith (window : Int) (held : Option (List Sample)) (later : List (List Sample)) :
    later.foldl (fun held values => some (extendWith window values held)) held =
      running (samplesWithin window) (held.toList ++ later) := by
  have onward (first : List Sample) (rest : List (List Sample)) :
      rest.foldl (fun held values => some (extendWith window values held)) (some first) =
        some (rest.foldl (samplesWithin window) first) :=
    List.foldl_hom some fun _ _ => rfl
  cases held with
  | some first => exact onward first later
  | none =>
      cases later with
      | nil => rfl
      | cons first rest => exact onward first rest

/-- If a first matrix repeats no label set, what it comes to with a second one has its label sets in their
order and then the new ones of the second in order of first occurrence, each of them once.  Of each series
it holds the running merge of what the first matrix has of it and of all that the second one has of it.  So
a series that is there only once is taken over as it is. -/
theorem results_matrix_matrix (window : Duration) {first : List SampleStream}
    (distinct : (first.map SampleStream.metric).Nodup) (second : List SampleStream) :
    exists merged, results window (.matrix first) (.matrix second) = .ok (.matrix merged) ∧
      merged.map SampleStream.metric =
        first.map SampleStream.metric ++
          ((second.map SampleStream.metric).filter fun metric =>
            decide (metric ∉ first.map SampleStream.metric)).eraseDups ∧
      (merged.map SampleStream.metric).Nodup ∧
      (forall metric, streamsOf metric merged =
        (running (samples window) (streamsOf metric first ++ streamsOf metric second)).toList) ∧
      forall stream,
        streamsOf stream.metric first ++ streamsOf stream.metric second = [stream.values] ->
          stream ∈ merged := by
  have mergedDistinct : ((matrices (windowMillis window) first second).map SampleStream.metric).Nodup :=
    matrices_distinct distinct second
  have held (metric : LabelSet) : samplesOf? metric (matrices (windowMillis window) first second) =
      running (samples window) (streamsOf metric first ++ streamsOf metric second) := by
    rw [samplesOf?_matrices distinct, foldl_extendWith, streamsOf_of_distinct distinct]
    rfl
  refine ⟨matrices (windowMillis window) first second, rfl, ?_, mergedDistinct, ?_, ?_⟩
  · rw [matrices_metrics, unmetBy_id_eq_eraseDups]
  · intro metric
    rw [streamsOf_of_distinct mergedDistinct, held]
  · intro stream once
    rw [← samplesOf?_eq_some_iff mergedDistinct, held, once]
    rfl

/-- A series that both matrices have, one that only the first one has, and one that the second one has
three times. -/
theorem results_matrix_matrix_repeated :
    let labels : String -> LabelSet := fun job => NameMap.empty.insert "job" job
    let window := Duration.ofSeconds 5
    let first : List SampleStream := [⟨labels "api", [⟨0, 1⟩]⟩, ⟨labels "node", [⟨9, 1⟩, ⟨8, 1⟩]⟩]
    let second : List SampleStream := [⟨labels "db", [⟨4000, 1⟩, ⟨3000, 2⟩]⟩, ⟨labels "api", [⟨6000, 1⟩]⟩,
      ⟨labels "db", [⟨20000, 1⟩]⟩, ⟨labels "db", [⟨12000, 1⟩]⟩]
    (first.map SampleStream.metric).Nodup ∧
      streamsOf (labels "node") first ++ streamsOf (labels "node") second = [[⟨9, 1⟩, ⟨8, 1⟩]] ∧
      exists merged, results window (.matrix first) (.matrix second) = .ok (.matrix merged) ∧
        merged.map SampleStream.metric = ["api", "node", "db"].map labels ∧
        streamsOf (labels "db") merged = [[⟨4000, 1⟩, ⟨12000, 1⟩, ⟨20000, 1⟩]] ∧
        (⟨labels "node", [⟨9, 1⟩, ⟨8, 1⟩]⟩ : SampleStream) ∈ merged := by
  intro labels window first second
  have distinct : (first.map SampleStream.metric).Nodup := by decide
  have once : streamsOf (labels "node") first ++ streamsOf (labels "node") second =
      [[⟨9, 1⟩, ⟨8, 1⟩]] := rfl
  rcases results_matrix_matrix window distinct second with
    ⟨merged, isMerged, metrics, _, held, single⟩
  have merges : (running (samples window)
      (streamsOf (labels "db") first ++ streamsOf (labels "db") second)).toList =
        [[⟨4000, 1⟩, ⟨12000, 1⟩, ⟨20000, 1⟩]] := by
    decide +kernel
  exact ⟨distinct, once, merged, isMerged, metrics.trans (by decide),
    (held (labels "db")).trans merges, single _ once⟩

/-! ## Two replicas either way round -/

/-- Samples with the same timestamps are the same if equal timestamps go with equal values. -/
theorem eq_of_timestamps {first second : List Sample}
    (same : first.map Sample.timestamp = second.map Sample.timestamp)
    (agree : forall one, one ∈ first -> forall other, other ∈ second ->
      one.timestamp = other.timestamp -> one.value = other.value) : first = second := by
  induction first generalizing second with
  | nil => exact (List.map_eq_nil_iff.mp same.symm).symm
  | cons one rest inductionHypothesis =>
      cases second with
      | nil => cases same
      | cons other others =>
          rcases List.cons.inj same with ⟨sameTime, sameTimes⟩
          have sameValue := agree one List.mem_cons_self other List.mem_cons_self sameTime
          have sameRest := inductionHypothesis sameTimes fun left isLeft right isRight =>
            agree left (List.mem_cons_of_mem _ isLeft) right (List.mem_cons_of_mem _ isRight)
          rw [Sample.ext sameTime sameValue, sameRest]

/-- Two series in order show the same timestamps whichever is merged into the other. -/
theorem samplesWithin_comm_timestamps (window : Duration) {first second : List Sample}
    (firstInOrder : InOrder first) (secondInOrder : InOrder second) :
    (samplesWithin (windowMillis window) first second).map Sample.timestamp =
      (samplesWithin (windowMillis window) second first).map Sample.timestamp := by
  have turned : IsThinned window _ _ := isThinned_samplesWithin secondInOrder firstInOrder
  exact (isThinned_samplesWithin firstInOrder secondInOrder).unique
    (turned.congr fun time => or_comm)

/-- Whether any two samples of one series that have one timestamp have one value, too. -/
def AgreeOnValues (streams : List SampleStream) : Prop :=
  forall one, one ∈ streams -> forall other, other ∈ streams -> one.metric = other.metric ->
    forall left, left ∈ one.values -> forall right, right ∈ other.values ->
      left.timestamp = right.timestamp -> left.value = right.value

/-- What two matrices hold of a series shows the same timestamps either way round, and is the same if equal
timestamps go with equal values. -/
theorem samplesOf?_matrices_comm (window : Duration) {first second : List SampleStream}
    (firstDistinct : (first.map SampleStream.metric).Nodup)
    (secondDistinct : (second.map SampleStream.metric).Nodup)
    (inOrder : forall stream, stream ∈ first ++ second -> InOrder stream.values)
    (metric : LabelSet) :
    timestampsOf? metric (matrices (windowMillis window) first second) =
        timestampsOf? metric (matrices (windowMillis window) second first) ∧
      (AgreeOnValues (first ++ second) ->
        samplesOf? metric (matrices (windowMillis window) first second) =
          samplesOf? metric (matrices (windowMillis window) second first)) := by
  rw [timestampsOf?, timestampsOf?, samplesOf?_matrices_of_distinct firstDistinct secondDistinct,
    samplesOf?_matrices_of_distinct secondDistinct firstDistinct]
  rw [List.forall_mem_append] at inOrder
  cases foundFirst : samplesOf? metric first with
  | none => cases samplesOf? metric second <;> exact ⟨rfl, fun _ => rfl⟩
  | some left =>
      cases foundSecond : samplesOf? metric second with
      | none => exact ⟨rfl, fun _ => rfl⟩
      | some right =>
          rcases exists_stream_of_samplesOf? foundFirst with ⟨one, isFirst, oneMetric, rfl⟩
          rcases exists_stream_of_samplesOf? foundSecond with ⟨other, isSecond, otherMetric, rfl⟩
          have sameTimes := samplesWithin_comm_timestamps window (inOrder.1 one isFirst)
            (inOrder.2 other isSecond)
          refine ⟨congrArg some sameTimes, fun agree => congrArg some ?_⟩
          apply eq_of_timestamps sameTimes
          -- Every kept sample is one of a stream with this label set.
          have source {sample : Sample} (isThere : sample ∈ one.values ∨ sample ∈ other.values) :
              exists stream, stream ∈ first ++ second ∧ stream.metric = metric ∧
                sample ∈ stream.values := by
            rcases isThere with inOne | inOther
            · exact ⟨one, List.mem_append_left _ isFirst, oneMetric, inOne⟩
            · exact ⟨other, List.mem_append_right _ isSecond, otherMetric, inOther⟩
          intro sample isKept another isKeptToo sameTime
          rcases source (mem_of_mem_samplesWithin isKept) with
            ⟨stream, isStream, streamMetric, inStream⟩
          rcases source (mem_of_mem_samplesWithin isKeptToo).symm with
            ⟨further, isFurther, furtherMetric, inFurther⟩
          exact agree stream isStream further isFurther (streamMetric.trans furtherMetric.symm) sample
            inStream another inFurther sameTime

/-- Two matrices without repeated label sets whose series are in order come to the same series with the
same timestamps whichever of them is the first.  If besides equal timestamps of a series go with equal
values, only the order of the series depends on that. -/
theorem results_matrix_comm (window : Duration) {first second : List SampleStream}
    (firstDistinct : (first.map SampleStream.metric).Nodup)
    (secondDistinct : (second.map SampleStream.metric).Nodup)
    (inOrder : forall stream, stream ∈ first ++ second -> InOrder stream.values) :
    exists merged other, results window (.matrix first) (.matrix second) = .ok (.matrix merged) ∧
      results window (.matrix second) (.matrix first) = .ok (.matrix other) ∧
      (merged.map SampleStream.metric).Nodup ∧
      (merged.map SampleStream.metric).Perm (other.map SampleStream.metric) ∧
      (forall metric, timestampsOf? metric merged = timestampsOf? metric other) ∧
      (AgreeOnValues (first ++ second) -> merged.Perm other) := by
  have mergedDistinct : ((matrices (windowMillis window) first second).map SampleStream.metric).Nodup :=
    matrices_distinct firstDistinct second
  have otherDistinct : ((matrices (windowMillis window) second first).map SampleStream.metric).Nodup :=
    matrices_distinct secondDistinct first
  have commutes := samplesOf?_matrices_comm window firstDistinct secondDistinct inOrder
  refine ⟨_, _, rfl, rfl, mergedDistinct, ?_, fun metric => (commutes metric).1, ?_⟩
  · apply (List.perm_ext_iff_of_nodup mergedDistinct otherDistinct).mpr
    intro metric
    rw [mem_metrics_matrices, mem_metrics_matrices, or_comm]
  · intro agree
    exact perm_of_samplesOf? mergedDistinct otherDistinct fun metric => (commutes metric).2 agree

/-- Two replicas that share a series, with timestamps that repeat within the first and across both, and
have one further series each. -/
theorem results_matrix_comm_replicas :
    let labels : String -> LabelSet := fun job => NameMap.empty.insert "job" job
    let window := Duration.ofSeconds 5
    let first : List SampleStream := [⟨labels "api", [⟨1000, 1⟩, ⟨6000, 2⟩, ⟨6000, 2⟩]⟩,
      ⟨labels "node", [⟨0, 1⟩, ⟨1, 1⟩]⟩]
    let second : List SampleStream := [⟨labels "db", [⟨0, 3⟩]⟩,
      ⟨labels "api", [⟨0, 4⟩, ⟨5500, 5⟩, ⟨6000, 2⟩]⟩]
    (first.map SampleStream.metric).Nodup ∧ (second.map SampleStream.metric).Nodup ∧
      (forall stream, stream ∈ first ++ second -> InOrder stream.values) ∧
      AgreeOnValues (first ++ second) ∧
      exists merged other, results window (.matrix first) (.matrix second) = .ok (.matrix merged) ∧
        results window (.matrix second) (.matrix first) = .ok (.matrix other) ∧
        merged.Perm other ∧ timestampsOf? (labels "api") merged = timestampsOf? (labels "api") other := by
  intro labels window first second
  have firstDistinct : (first.map SampleStream.metric).Nodup := by decide
  have secondDistinct : (second.map SampleStream.metric).Nodup := by decide
  have inOrder : forall stream, stream ∈ first ++ second -> InOrder stream.values := by
    unfold InOrder
    decide +kernel
  have agree : AgreeOnValues (first ++ second) := by
    unfold AgreeOnValues
    decide +kernel
  rcases results_matrix_comm window firstDistinct secondDistinct inOrder with
    ⟨merged, other, isMerged, isOther, _, _, times, perm⟩
  exact ⟨firstDistinct, secondDistinct, inOrder, agree, merged, other, isMerged, isOther, perm agree,
    times (labels "api")⟩

end Merge
end QueryFederation
