import QueryFederation.Proofs.Merge.Running
import QueryFederation.Proofs.Merge.Streams
import QueryFederation.Proofs.Merge.Thinning

/-!
# Matrices merged in another order

Replicas of one series are merged pairwise, each into what the earlier ones have come to.  A sample that
is dropped no longer drops others, so what a chain of samples comes to can depend on the order: when a
first sample is within the window of a second one and this is within the window of a third, the third one
stays if the first meets the second before the third does, and goes if the second meets the third before.

Nothing else depends on the order.  As long as the three samples of such a chain never come from three
different matrices, all orders of merging show the same timestamps.  Two matrices alone are therefore
merged the same either way, and so are any number of them under a window of zero.
-/

namespace QueryFederation

/-- Whether each of three timestamps is within a window of the next one, although the last one is out of
the window of the first. -/
structure Timestamp64.IsChain (window : Duration) (early middle late : Timestamp64) : Prop where
  early_lt : early < middle
  lt_late : middle < late
  early_near : ¬ Timestamp64.FollowsApart window early middle
  late_near : ¬ Timestamp64.FollowsApart window middle late
  apart : Timestamp64.FollowsApart window early late

instance (window : Duration) (first second : Timestamp64) :
    Decidable (Timestamp64.FollowsApart window first second) :=
  inferInstanceAs (Decidable (_ < _))

instance (window : Duration) (early middle late : Timestamp64) :
    Decidable (Timestamp64.IsChain window early middle late) :=
  decidable_of_iff (early < middle ∧ middle < late ∧
      ¬ Timestamp64.FollowsApart window early middle ∧
      ¬ Timestamp64.FollowsApart window middle late ∧ Timestamp64.FollowsApart window early late)
    ⟨fun ⟨before, after, first, second, apart⟩ => ⟨before, after, first, second, apart⟩,
      fun chain => ⟨chain.early_lt, chain.lt_late, chain.early_near, chain.late_near, chain.apart⟩⟩

theorem WellFormedMatrix.singleton {window : Duration} {stream : SampleStream}
    (spaced : stream.IsSpaced window) : WellFormedMatrix window [stream] where
  distinct := List.nodup_singleton _
  spaced := by
    intro other isStream
    rw [List.mem_singleton.mp isStream]
    exact spaced

namespace Merge

/-- The timestamps of a series in a matrix, if the matrix has it. -/
def timestampsOf? (metric : LabelSet) (streams : List SampleStream) : Option (List Timestamp64) :=
  (samplesOf? metric streams).map fun samples => samples.map Sample.timestamp

/-- Whether a matrix has a sample of a series at a time. -/
def HasSampleAt (metric : LabelSet) (time : Timestamp64) (streams : List SampleStream) : Prop :=
  exists stream, stream ∈ streams ∧ stream.metric = metric ∧
    time ∈ stream.values.map Sample.timestamp

/-- Whether no three different ones among some matrices hold the three timestamps of a chain of one
series. -/
def IsUntangledFor (window : Duration) (metric : LabelSet) (partials : List (List SampleStream)) :
    Prop :=
  forall first, first ∈ partials -> forall second, second ∈ partials -> forall third, third ∈ partials ->
    first ≠ second -> second ≠ third -> first ≠ third -> forall early middle late,
      HasSampleAt metric early first -> HasSampleAt metric middle second ->
        HasSampleAt metric late third -> ¬ Timestamp64.IsChain window early middle late

variable {window : Duration} {metric : LabelSet} {partials : List (List SampleStream)}

/-! ## The running merge of one series -/

/-- The running merge of matrices holds of a series the running merge of what they hold of it. -/
theorem samplesOf?_running
    (distinct : forall streams, streams ∈ partials -> (streams.map SampleStream.metric).Nodup)
    (width : Int) (metric : LabelSet) :
    (running (matrices width) partials).bind (samplesOf? metric) =
        running (samplesWithin width) (partials.filterMap (samplesOf? metric)) ∧
      forall merged, running (matrices width) partials = some merged ->
        (merged.map SampleStream.metric).Nodup := by
  induction partials using List.reverseRecOn with
  | nil => exact ⟨rfl, fun merged isMerged => nomatch isMerged⟩
  | append_singleton partials last inductionHypothesis =>
      rcases inductionHypothesis fun streams isPartial => distinct streams (by simp [isPartial]) with
        ⟨held, mergedDistinct⟩
      have lastDistinct := distinct last (by simp)
      rw [running_concat, List.filterMap_append]
      cases soFar : running (matrices width) partials with
      | none =>
          rw [running_eq_none_iff.mp soFar]
          refine ⟨?_, fun merged isMerged => Option.some.inj isMerged ▸ lastDistinct⟩
          cases found : samplesOf? metric last <;> simp [found, running]
      | some merged =>
          rw [soFar, Option.bind_some] at held
          have together := mergedDistinct merged soFar
          constructor
          · change samplesOf? metric (matrices width merged last) = _
            rw [samplesOf?_matrices_of_distinct together lastDistinct, held]
            cases found : samplesOf? metric last with
            | none => simp [found]
            | some samples =>
                have single : [last].filterMap (samplesOf? metric) = [samples] := by simp [found]
                rw [single, running_concat]
          · intro both isMerged
            exact Option.some.inj isMerged ▸ matrices_distinct together last

/-- The running merge of untangled series shows the same timestamps in every order. -/
theorem running_perm_timestamps {streams reordered : List (List Sample)}
    (perm : streams.Perm reordered) (inOrder : forall stream, stream ∈ streams -> InOrder stream)
    (untangled : IsUntangled window streams) :
    (running (samplesWithin (windowMillis window)) streams).map
        (fun samples => samples.map Sample.timestamp) =
      (running (samplesWithin (windowMillis window)) reordered).map
        (fun samples => samples.map Sample.timestamp) := by
  match streams, reordered with
  | [], _ =>
      rw [perm.nil_eq]
  | [stream], _ =>
      rw [List.singleton_perm.mp perm]
  | _ :: _ :: _, [] => exact absurd perm.length_eq (by simp)
  | _ :: _ :: _, [_] => exact absurd perm.length_eq (by simp)
  | first :: second :: rest, other :: another :: others =>
      have kept := isThinned_foldl first second rest inOrder untangled
      have keptOther : IsThinned window _ _ := isThinned_foldl other another others
        (fun stream isStream => inOrder stream (perm.mem_iff.mpr isStream))
        (fun one isOne two isTwo three isThree => untangled one (perm.mem_iff.mpr isOne) two
          (perm.mem_iff.mpr isTwo) three (perm.mem_iff.mpr isThree))
      have sameTimes : forall time, HasTimestamp (other :: another :: others) time <->
          HasTimestamp (first :: second :: rest) time := by
        intro time
        exact exists_congr fun stream => and_congr_left fun _ => perm.mem_iff.symm
      exact congrArg some (kept.unique (keptOther.congr sameTimes))

/-! ## Matrices -/

/-- In a spaced series what is later follows at a distance greater than the window. -/
theorem followsApart_of_lt {stream : SampleStream} (spaced : stream.IsSpaced window)
    {first second : Timestamp64} (isFirst : first ∈ stream.values.map Sample.timestamp)
    (isSecond : second ∈ stream.values.map Sample.timestamp) (before : first < second) :
    Timestamp64.FollowsApart window first second :=
  rel_of_lt (List.isChain_iff_pairwise.mp spaced) (fun _ _ apart => apart.lt) isFirst isSecond before

theorem inOrder_of_spaced {stream : SampleStream} (spaced : stream.IsSpaced window) :
    InOrder stream.values :=
  spaced.pairwise.imp fun apart => Int64.le_of_lt apart.lt

/-- What spaced matrices hold of a series is untangled if the matrices are. -/
theorem isUntangled_of_matrices
    (wellFormed : forall streams, streams ∈ partials -> WellFormedMatrix window streams)
    (untangled : IsUntangledFor window metric partials) :
    IsUntangled window (partials.filterMap (samplesOf? metric)) := by
  intro first isFirst second isSecond third isThird early inFirst middle inSecond late inThird
    earlyBefore lateAfter earlyNear lateNear far
  rcases List.mem_filterMap.mp isFirst with ⟨one, isOne, foundFirst⟩
  rcases List.mem_filterMap.mp isSecond with ⟨two, isTwo, foundSecond⟩
  rcases List.mem_filterMap.mp isThird with ⟨three, isThree, foundThird⟩
  rcases exists_stream_of_samplesOf? foundFirst with ⟨firstStream, firstThere, firstMetric, rfl⟩
  rcases exists_stream_of_samplesOf? foundSecond with ⟨secondStream, secondThere, secondMetric, rfl⟩
  rcases exists_stream_of_samplesOf? foundThird with ⟨thirdStream, thirdThere, thirdMetric, rfl⟩
  have notApart {last candidate : Timestamp64} (near : IsNear window last candidate) :
      ¬ Timestamp64.FollowsApart window last candidate :=
    fun apart => not_isNear_of_followsApart far apart near
  by_contra different
  -- Near timestamps come from different matrices, because each of these is spaced.
  have oneNeTwo : one ≠ two := by
    rintro rfl
    rw [foundFirst, Option.some.injEq] at foundSecond
    exact notApart earlyNear (followsApart_of_lt ((wellFormed one isOne).spaced _ firstThere) inFirst
      (foundSecond ▸ inSecond) earlyBefore)
  have twoNeThree : two ≠ three := by
    rintro rfl
    rw [foundSecond, Option.some.injEq] at foundThird
    exact notApart lateNear (followsApart_of_lt ((wellFormed two isTwo).spaced _ secondThere) inSecond
      (foundThird ▸ inThird) lateAfter)
  have oneNeThree : one ≠ three := by
    rintro rfl
    exact different (Option.some.inj (foundFirst.symm.trans foundThird))
  exact untangled one isOne two isTwo three isThree oneNeTwo twoNeThree oneNeThree early middle late
    ⟨firstStream, firstThere, firstMetric, inFirst⟩
    ⟨secondStream, secondThere, secondMetric, inSecond⟩
    ⟨thirdStream, thirdThere, thirdMetric, inThird⟩
    ⟨earlyBefore, lateAfter, notApart earlyNear, notApart lateNear,
      followsApart_of_windowMillis_lt (Int.lt_of_not_ge far)⟩

/-- A chain of three samples, each from a matrix of its own, comes to two samples in one order and to one
in another. -/
theorem fold_of_chain (uncut : (window.millis : Int) < greatestDistance) (metric : LabelSet)
    {early middle late : Sample}
    (chain : Timestamp64.IsChain window early.timestamp middle.timestamp late.timestamp) :
    let single : Sample -> QueryResult := fun sample => .matrix [⟨metric, [sample]⟩]
    fold window [single early, single middle, single late] =
        .ok (some (.matrix [⟨metric, [early, late]⟩])) ∧
      fold window [single middle, single late, single early] = .ok (some (single early)) := by
  intro single
  have near {last candidate : Timestamp64}
      (close : ¬ Timestamp64.FollowsApart window last candidate) :
      IsNear window last candidate := by
    by_contra far
    exact close (followsApart_of_windowMillis_lt (Int.lt_of_not_ge far))
  have far : ¬ distanceAfter early.timestamp late.timestamp ≤ windowMillis window := by
    have apart := chain.apart
    have nanos : window.nanos < 1000000000 := window.nanos_lt
    unfold Timestamp64.FollowsApart Duration.totalNanos nanosPerSecond at apart
    unfold distanceAfter windowMillis greatestDistance Duration.millis at *
    rw [Nat.pow_eq] at *
    omega
  have merged (values others : List Sample) :
      matrices (windowMillis window) [⟨metric, values⟩] [⟨metric, others⟩] =
        [⟨metric, samplesWithin (windowMillis window) values others⟩] := by
    simp [matrices, addStream, absorb?]
  have ends : samplesWithin (windowMillis window) [early] [late] = [early, late] := by
    have before := Int64.lt_trans chain.early_lt chain.lt_late
    simp [samplesWithin, interleave, Int64.lt_asymm before, thin, thinAfter, far]
  have start := samplesWithin_of_isNear chain.early_lt (near chain.early_near)
  have finish := samplesWithin_of_isNear chain.lt_late (near chain.late_near)
  constructor
  · change fold window ([[⟨metric, [early]⟩], [⟨metric, [middle]⟩], [⟨metric, [late]⟩]].map .matrix) = _
    rw [fold_matrix]
    simp [running, merged, start.1, ends]
  · change fold window ([[⟨metric, [middle]⟩], [⟨metric, [late]⟩], [⟨metric, [early]⟩]].map .matrix) = _
    rw [fold_matrix]
    simp [running, merged, finish.1, start.2, single]

/-- The order in which matrices are merged decides neither whether they can be merged nor which series
the merged matrix has, nor which timestamps it shows of a series that is not tangled among them. -/
theorem fold_perm_timestamps {reordered : List (List SampleStream)}
    (wellFormed : forall streams, streams ∈ partials -> WellFormedMatrix window streams)
    (perm : partials.Perm reordered) :
    exists merged other : Option (List SampleStream),
      fold window (partials.map .matrix) = .ok (merged.map .matrix) ∧
      fold window (reordered.map .matrix) = .ok (other.map .matrix) ∧
      forall metric,
        ((merged.bind (timestampsOf? metric)).isSome <-> (other.bind (timestampsOf? metric)).isSome) ∧
        (IsUntangledFor window metric partials ->
          merged.bind (timestampsOf? metric) = other.bind (timestampsOf? metric)) := by
  have distinct : forall streams, streams ∈ partials -> (streams.map SampleStream.metric).Nodup :=
    fun streams isPartial => (wellFormed streams isPartial).distinct
  have otherDistinct : forall streams, streams ∈ reordered ->
      (streams.map SampleStream.metric).Nodup :=
    fun streams isPartial => distinct streams (perm.mem_iff.mpr isPartial)
  refine ⟨_, _, fold_matrix window partials, fold_matrix window reordered, ?_⟩
  intro metric
  have shown : forall merged : Option (List SampleStream), merged.bind (timestampsOf? metric) =
      (merged.bind (samplesOf? metric)).map fun samples => samples.map Sample.timestamp := by
    intro merged
    cases merged <;> rfl
  have permStreams := perm.filterMap (samplesOf? metric)
  rw [shown, shown, (samplesOf?_running distinct _ metric).1,
    (samplesOf?_running otherDistinct _ metric).1]
  constructor
  · simp only [Option.isSome_map, Option.isSome_iff_ne_none, ne_eq, running_eq_none_iff]
    rw [← List.length_eq_zero_iff, ← List.length_eq_zero_iff, permStreams.length_eq]
  · intro untangled
    apply running_perm_timestamps permStreams
    · intro samples isStream
      rcases List.mem_filterMap.mp isStream with ⟨streams, isPartial, found⟩
      rcases exists_stream_of_samplesOf? found with ⟨stream, isThere, _, rfl⟩
      exact inOrder_of_spaced ((wellFormed streams isPartial).spaced stream isThere)
    · exact isUntangled_of_matrices wellFormed untangled

/-- Three replicas of one series, each a little later than the one before. -/
theorem fold_perm_timestamps_replicas :
    let window := Duration.ofSeconds 5
    let replica : List Sample -> List SampleStream := fun samples => [⟨.empty, samples⟩]
    let first := replica [⟨0, 1⟩, ⟨60000, 2⟩]
    let second := replica [⟨1000, 1⟩]
    let third := replica [⟨2000, 1⟩, ⟨61000, 2⟩]
    let partials := [first, second, third]
    (forall streams, streams ∈ partials -> WellFormedMatrix window streams) ∧
      partials.Perm [third, first, second] ∧ IsUntangledFor window .empty partials ∧
      exists merged other : Option (List SampleStream),
        fold window (partials.map .matrix) = .ok (merged.map .matrix) ∧
        fold window ([third, first, second].map .matrix) = .ok (other.map .matrix) ∧
        merged.bind (timestampsOf? .empty) = other.bind (timestampsOf? .empty) := by
  intro window replica first second third partials
  have wellFormed : forall streams, streams ∈ partials -> WellFormedMatrix window streams := by
    have spaced {samples : List Sample}
        (chain : (samples.map Sample.timestamp).IsChain (Timestamp64.FollowsApart window)) :
        WellFormedMatrix window (replica samples) := WellFormedMatrix.singleton chain
    simp only [partials, List.forall_mem_cons]
    exact ⟨spaced (by decide), spaced (by decide), spaced (by decide), by simp⟩
  have perm : partials.Perm [third, first, second] := by decide
  have untangled : IsUntangledFor window .empty partials := by
    let shown : List Timestamp64 := [0, 60000, 1000, 2000, 61000]
    have times : forall streams, streams ∈ partials -> forall time,
        HasSampleAt .empty time streams -> time ∈ shown := by
      simp only [partials, List.forall_mem_cons]
      simp only [shown, HasSampleAt, first, second, third, replica, List.mem_singleton, exists_eq_left,
        true_and, List.map_cons, List.map_nil]
      refine ⟨?_, ?_, ?_, by simp⟩
      all_goals
        intro time isThere
        simp only [List.mem_cons, List.not_mem_nil, or_false] at isThere ⊢
        tauto
    have noChain : (shown.all fun early => shown.all fun middle => shown.all fun late =>
        decide ¬ Timestamp64.IsChain window early middle late) = true := by
      decide
    simp only [List.all_eq_true, decide_eq_true_eq] at noChain
    intro one isOne two isTwo three isThree _ _ _ early middle late inOne inTwo inThree
    exact noChain early (times one isOne early inOne) middle (times two isTwo middle inTwo) late
      (times three isThree late inThree)
  rcases fold_perm_timestamps wellFormed perm with ⟨merged, other, folded, foldedOther, agree⟩
  exact ⟨wellFormed, perm, untangled, merged, other, folded, foldedOther,
    (agree .empty).2 untangled⟩

/-- Three replicas of one series under a window of ten seconds, with one sample each, at zero, eight and
sixteen seconds. -/
theorem fold_tangled_timestamps :
    let window := Duration.ofSeconds 10
    let replica : Timestamp64 -> List SampleStream := fun time => [⟨.empty, [⟨time, 1⟩]⟩]
    let partials := [replica 0, replica 8000, replica 16000]
    let reordered := [replica 8000, replica 16000, replica 0]
    (forall streams, streams ∈ partials -> WellFormedMatrix window streams) ∧
      partials.Perm reordered ∧
      exists merged other : List SampleStream,
        fold window (partials.map .matrix) = .ok (some (.matrix merged)) ∧
        fold window (reordered.map .matrix) = .ok (some (.matrix other)) ∧
        timestampsOf? .empty merged = some [0, 16000] ∧ timestampsOf? .empty other = some [0] := by
  intro window replica partials reordered
  have wellFormed : forall streams, streams ∈ partials -> WellFormedMatrix window streams := by
    simp only [partials, List.forall_mem_cons]
    exact ⟨.singleton (.singleton _), .singleton (.singleton _), .singleton (.singleton _), by simp⟩
  have perm : partials.Perm reordered := by decide
  have chain : Timestamp64.IsChain window (Sample.mk 0 1).timestamp (Sample.mk 8000 1).timestamp
      (Sample.mk 16000 1).timestamp := by decide
  have folded := fold_of_chain (by decide) .empty chain
  exact ⟨wellFormed, perm, _, _, folded.1, folded.2, by decide, by decide⟩

end Merge
end QueryFederation
