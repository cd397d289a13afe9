import QueryFederation.Proofs.Merge.Spacing

/-!
# What a merged matrix holds of each series

A matrix without repeated label sets is a finite map from label sets to samples.  Merging works on each
series for itself: what the merged matrix holds of a series is what the two matrices hold of it, merged
if both of them hold it.
-/

namespace QueryFederation
namespace Merge

/-- The samples of the first stream with a label set. -/
def samplesOf? (metric : LabelSet) (streams : List SampleStream) : Option (List Sample) :=
  (streams.find? fun stream => decide (stream.metric = metric)).map SampleStream.values

section Lookup

variable {metric : LabelSet} {stream : SampleStream} {streams : List SampleStream}

theorem samplesOf?_cons (metric : LabelSet) (stream : SampleStream) (streams : List SampleStream) :
    samplesOf? metric (stream :: streams) =
      if stream.metric = metric then some stream.values else samplesOf? metric streams := by
  unfold samplesOf?
  by_cases same : stream.metric = metric <;> simp [same]

/-- All that a matrix holds of a series, stream by stream. -/
def streamsOf (metric : LabelSet) (streams : List SampleStream) : List (List Sample) :=
  (streams.filter fun stream => decide (stream.metric = metric)).map SampleStream.values

theorem streamsOf_cons (metric : LabelSet) (stream : SampleStream) (streams : List SampleStream) :
    streamsOf metric (stream :: streams) =
      if stream.metric = metric then stream.values :: streamsOf metric streams
      else streamsOf metric streams := by
  unfold streamsOf
  by_cases same : stream.metric = metric <;> simp [same]

theorem streamsOf_eq_nil (missing : metric ∉ streams.map SampleStream.metric) :
    streamsOf metric streams = [] := by
  unfold streamsOf
  rw [List.map_eq_nil_iff, List.filter_eq_nil_iff]
  intro stream isStream same
  exact missing (of_decide_eq_true same ▸ List.mem_map_of_mem isStream)

theorem samplesOf?_eq_none_iff :
    samplesOf? metric streams = none <-> metric ∉ streams.map SampleStream.metric := by
  simp [samplesOf?, List.find?_eq_none]

/-- What is found is held by a stream with the label set. -/
theorem exists_stream_of_samplesOf? {values : List Sample}
    (found : samplesOf? metric streams = some values) :
    exists stream, stream ∈ streams ∧ stream.metric = metric ∧ stream.values = values := by
  rcases Option.map_eq_some_iff.mp found with ⟨stream, isFound, sameValues⟩
  have sameMetric := List.find?_some isFound
  exact ⟨stream, List.mem_of_find?_eq_some isFound, by simpa using sameMetric, sameValues⟩

/-- Without repeated label sets a stream is found exactly if it is there. -/
theorem samplesOf?_eq_some_iff (distinct : (streams.map SampleStream.metric).Nodup) :
    samplesOf? stream.metric streams = some stream.values <-> stream ∈ streams := by
  constructor
  · intro found
    rcases exists_stream_of_samplesOf? found with ⟨other, isThere, sameMetric, sameValues⟩
    exact SampleStream.ext sameMetric sameValues ▸ isThere
  · intro isThere
    induction streams with
    | nil => cases isThere
    | cons first rest inductionHypothesis =>
        rw [List.map_cons, List.nodup_cons] at distinct
        rw [samplesOf?_cons]
        rcases List.mem_cons.mp isThere with rfl | later
        · rw [if_pos rfl]
        · have different : first.metric ≠ stream.metric := fun same =>
            distinct.1 (same ▸ List.mem_map_of_mem later)
          rw [if_neg different, inductionHypothesis distinct.2 later]

/-- Two matrices without repeated label sets that hold the same of each series differ in the order of the
series only. -/
theorem perm_of_samplesOf? {others : List SampleStream}
    (distinct : (streams.map SampleStream.metric).Nodup)
    (othersDistinct : (others.map SampleStream.metric).Nodup)
    (same : forall metric, samplesOf? metric streams = samplesOf? metric others) :
    streams.Perm others := by
  apply (List.perm_ext_iff_of_nodup distinct.of_map othersDistinct.of_map).mpr
  intro stream
  rw [← samplesOf?_eq_some_iff distinct, ← samplesOf?_eq_some_iff othersDistinct, same]

/-- Without repeated label sets there is at most one stream of a series. -/
theorem streamsOf_of_distinct (distinct : (streams.map SampleStream.metric).Nodup)
    (metric : LabelSet) : streamsOf metric streams = (samplesOf? metric streams).toList := by
  induction streams with
  | nil => rfl
  | cons stream rest inductionHypothesis =>
      rw [List.map_cons, List.nodup_cons] at distinct
      rw [streamsOf_cons, samplesOf?_cons]
      by_cases same : stream.metric = metric
      · rw [if_pos same, if_pos same, streamsOf_eq_nil (same ▸ distinct.1)]
        rfl
      · rw [if_neg same, if_neg same, inductionHypothesis distinct.2]

end Lookup

section Merging

variable {window : Int} {metric : LabelSet} {values : List Sample} {streams : List SampleStream}

/-- Absorbing samples changes the series they belong to and no other one. -/
theorem samplesOf?_absorb? {absorbed : List SampleStream}
    (distinct : (streams.map SampleStream.metric).Nodup)
    (absorbs : absorb? window metric values streams = some absorbed) (other : LabelSet) :
    samplesOf? other absorbed =
      if other = metric then
        (samplesOf? metric streams).map fun held => samplesWithin window held values
      else samplesOf? other streams := by
  induction streams generalizing absorbed with
  | nil => cases absorbs
  | cons stream rest inductionHypothesis =>
      rw [List.map_cons, List.nodup_cons] at distinct
      rw [absorb?] at absorbs
      cases later : absorb? window metric values rest with
      | some absorbedLater =>
          rw [later] at absorbs
          cases absorbs
          have held : metric ∈ rest.map SampleStream.metric := by
            by_contra missing
            rw [(absorb?_eq_none_iff window metric values rest).mpr missing] at later
            cases later
          have different : stream.metric ≠ metric := fun same => distinct.1 (same ▸ held)
          rw [samplesOf?_cons, samplesOf?_cons, samplesOf?_cons, if_neg different,
            inductionHypothesis distinct.2 later]
          by_cases same : stream.metric = other
          · have otherDiffers : other ≠ metric := same ▸ different
            simp [same, otherDiffers]
          · simp [same]
      | none =>
          rw [later] at absorbs
          dsimp only at absorbs
          split at absorbs
          · rename_i sameMetric
            cases absorbs
            subst sameMetric
            rw [samplesOf?_cons, samplesOf?_cons, samplesOf?_cons]
            by_cases same : other = stream.metric
            · simp [same]
            · simp [same, Ne.symm same]
          · cases absorbs

/-- The samples of a series when further samples are merged into those held so far, if any are. -/
def extendWith (window : Int) (values : List Sample) : Option (List Sample) -> List Sample
  | none => values
  | some held => samplesWithin window held values

theorem samplesOf?_addStream (distinct : (streams.map SampleStream.metric).Nodup)
    (stream : SampleStream) (other : LabelSet) :
    samplesOf? other (addStream window streams stream) =
      if other = stream.metric then
        some (extendWith window stream.values (samplesOf? stream.metric streams))
      else samplesOf? other streams := by
  unfold addStream
  cases absorbs : absorb? window stream.metric stream.values streams with
  | some absorbed =>
      rw [Option.getD_some, samplesOf?_absorb? distinct absorbs]
      have held : samplesOf? stream.metric streams ≠ none := by
        rw [ne_eq, samplesOf?_eq_none_iff, ← absorb?_eq_none_iff window stream.metric stream.values,
          absorbs]
        simp
      rcases Option.ne_none_iff_exists'.mp held with ⟨held, isHeld⟩
      rw [isHeld]
      rfl
  | none =>
      have missing := (absorb?_eq_none_iff window stream.metric stream.values streams).mp absorbs
      rw [← samplesOf?_eq_none_iff] at missing
      rw [Option.getD_none, missing]
      by_cases same : other = stream.metric
      · rw [if_pos same, same]
        unfold samplesOf? at missing ⊢
        rw [Option.map_eq_none_iff] at missing
        simp [List.find?_append, missing, extendWith]
      · rw [if_neg same]
        simp [samplesOf?, List.find?_append, Ne.symm same]

/-- A stream's label set is added at the end if it is new. -/
theorem addStream_metrics (window : Int) (streams : List SampleStream) (stream : SampleStream) :
    (addStream window streams stream).map SampleStream.metric =
      if stream.metric ∈ streams.map SampleStream.metric then streams.map SampleStream.metric
      else streams.map SampleStream.metric ++ [stream.metric] := by
  unfold addStream
  cases absorbs : absorb? window stream.metric stream.values streams with
  | some absorbed =>
      have held : stream.metric ∈ streams.map SampleStream.metric := by
        by_contra missing
        rw [(absorb?_eq_none_iff window _ stream.values streams).mpr missing] at absorbs
        cases absorbs
      rw [if_pos held, Option.getD_some, absorb?_metrics absorbs]
  | none =>
      have missing := (absorb?_eq_none_iff window stream.metric stream.values streams).mp absorbs
      rw [if_neg missing, Option.getD_none, List.map_append, List.map_singleton]

theorem addStream_distinct (distinct : (streams.map SampleStream.metric).Nodup)
    (stream : SampleStream) :
    ((addStream window streams stream).map SampleStream.metric).Nodup := by
  rw [addStream_metrics]
  split
  · exact distinct
  · rename_i missing
    exact List.nodup_append.mpr ⟨distinct, List.nodup_singleton _, by grind⟩

theorem matrices_distinct {first : List SampleStream}
    (distinct : (first.map SampleStream.metric).Nodup) (second : List SampleStream) :
    ((matrices window first second).map SampleStream.metric).Nodup := by
  unfold matrices
  induction second generalizing first with
  | nil => exact distinct
  | cons stream rest inductionHypothesis =>
      exact inductionHypothesis (addStream_distinct distinct stream)

/-- What a merged matrix holds of a series: the streams that the second matrix has of it are merged one
after another into what the first one holds. -/
theorem samplesOf?_matrices {first : List SampleStream}
    (distinct : (first.map SampleStream.metric).Nodup) (second : List SampleStream)
    (metric : LabelSet) :
    samplesOf? metric (matrices window first second) =
      (streamsOf metric second).foldl (fun held values => some (extendWith window values held))
        (samplesOf? metric first) := by
  unfold matrices
  induction second generalizing first with
  | nil => rfl
  | cons stream rest inductionHypothesis =>
      rw [List.foldl_cons, inductionHypothesis (addStream_distinct distinct stream),
        samplesOf?_addStream distinct, streamsOf_cons]
      by_cases same : stream.metric = metric
      · subst same
        simp
      · simp [same, Ne.symm same]

/-- Of two matrices without repeated label sets, the merged one holds of a series what they hold of it,
merged if both of them hold it. -/
theorem samplesOf?_matrices_of_distinct {first second : List SampleStream}
    (firstDistinct : (first.map SampleStream.metric).Nodup)
    (secondDistinct : (second.map SampleStream.metric).Nodup) (metric : LabelSet) :
    samplesOf? metric (matrices window first second) =
      Option.merge (samplesWithin window) (samplesOf? metric first) (samplesOf? metric second) := by
  rw [samplesOf?_matrices firstDistinct, streamsOf_of_distinct secondDistinct]
  cases samplesOf? metric first <;> cases samplesOf? metric second <;> rfl

/-- Series that are new are put behind the others, each as it is. -/
theorem matrices_of_new {first second : List SampleStream}
    (distinct : (second.map SampleStream.metric).Nodup)
    (new : forall metric, metric ∈ second.map SampleStream.metric ->
      metric ∉ first.map SampleStream.metric) : matrices window first second = first ++ second := by
  induction second generalizing first with
  | nil => rw [List.append_nil]; rfl
  | cons stream rest inductionHypothesis =>
      rw [List.map_cons, List.nodup_cons] at distinct
      have isNew := new stream.metric List.mem_cons_self
      have added : addStream window first stream = first ++ [stream] := by
        rw [addStream, (absorb?_eq_none_iff window stream.metric stream.values first).mpr isNew,
          Option.getD_none]
      have stillNew : forall metric, metric ∈ rest.map SampleStream.metric ->
          metric ∉ (first ++ [stream]).map SampleStream.metric := by
        intro metric isLater known
        rw [List.map_append, List.map_singleton, List.mem_append, List.mem_singleton] at known
        rcases known with held | rfl
        · exact new metric (List.mem_cons_of_mem _ isLater) held
        · exact distinct.1 isLater
      change matrices window (addStream window first stream) rest = first ++ stream :: rest
      rw [added, inductionHypothesis distinct.2 stillNew, List.append_assoc]
      rfl

theorem nil_matrices {streams : List SampleStream}
    (distinct : (streams.map SampleStream.metric).Nodup) : matrices window [] streams = streams :=
  matrices_of_new distinct fun _ _ known => nomatch known

end Merging

end Merge
end QueryFederation
