import QueryFederation.Proofs.Merge.Bracketing
import QueryFederation.Proofs.Merge.Greedy
import QueryFederation.Proofs.Merge.Reordering

/-!
# Answers that come twice

An answer that has been merged already may come again, for instance when one backend is a member of two
federations.  It changes nothing then.  All entries of it have been met before, so lists and vectors gain
none.

For matrices this is less plain.  A sample that was dropped is dropped again, although it now meets the
samples that were kept instead of those it was merged with at first: it lies within the window of a kept
sample that is not later, and the kept samples are apart from each other.  A series that only one of two
matrices holds was taken over as it was, and is merged for the first time when it comes again.  Then its
own samples must be apart from each other.  No samples are when the window is as wide as the greatest
distance that is told apart, so the window must be smaller.
-/

namespace QueryFederation
namespace Merge

/-- Whether what two entries come to stays as it is when either of them is joined to it again. -/
def Absorbs {Entry : Type} (join : Entry -> Entry -> Entry) (first second : Entry) : Prop :=
  join (join first second) first = join first second ∧
    join (join first second) second = join first second

/-- Whether two results can be merged and what they come to stays as it is when either of them is merged
into it again. -/
def ResultsAbsorb (window : Duration) (first second : QueryResult) : Prop :=
  exists merged, results window first second = .ok merged ∧
    results window merged first = .ok merged ∧ results window merged second = .ok merged

theorem Absorbs.results {Entry : Type} {window : Duration} {form : Entry -> QueryResult}
    {join : Entry -> Entry -> Entry} {first second : Entry} (absorbs : Absorbs join first second)
    (merges : forall first second,
      results window (form first) (form second) = .ok (form (join first second))) :
    ResultsAbsorb window (form first) (form second) := by
  refine ⟨form (join first second), merges first second, ?_, ?_⟩
  · rw [merges, absorbs.1]
  · rw [merges, absorbs.2]

/-! ## Lists and vectors -/

theorem union_eq_left {Entry : Type} [DecidableEq Entry] {held again : List Entry}
    (nodup : held.Nodup) (known : forall entry, entry ∈ again -> entry ∈ held) :
    union held again = held := by
  have nothingLeft : unmetBy id held again = [] := by
    apply unmetBy_eq_nil
    rwa [List.map_id]
  rw [union_eq, distinct_of_nodup nodup, nothingLeft, List.append_nil]

theorem union_absorbs {Entry : Type} [DecidableEq Entry] (first second : List Entry) :
    Absorbs union first second := by
  have nodup := union_nodup first second
  have known {entry : Entry} (isThere : entry ∈ first ++ second) : entry ∈ union first second :=
    mem_distinct.mpr isThere
  constructor
  · exact union_eq_left nodup fun entry inFirst => known (List.mem_append_left _ inFirst)
  · exact union_eq_left nodup fun entry inSecond => known (List.mem_append_right _ inSecond)

theorem vectors_eq_left {held again : List InstantSample}
    (known : forall metric, metric ∈ again.map InstantSample.metric ->
      metric ∈ held.map InstantSample.metric) : vectors held again = held := by
  rw [vectors_eq, unmetBy_eq_nil known, List.append_nil]

theorem vectors_absorb (first second : List InstantSample) : Absorbs vectors first second := by
  constructor
  · exact vectors_eq_left fun metric inFirst => mem_metrics_vectors.mpr (.inl inFirst)
  · exact vectors_eq_left fun metric inSecond => mem_metrics_vectors.mpr (.inr inSecond)

/-! ## Samples -/

section Samples

variable {window : Duration} {held again : List Sample}

/-- Whether samples are apart from each other, as those that a merge keeps. -/
def AreApart (window : Duration) (samples : List Sample) : Prop :=
  samples.Pairwise fun first second => ¬ IsNear window first.timestamp second.timestamp

/-- Whether each of some samples lies within the window of a held one that is not later. -/
def IsCovered (window : Duration) (held again : List Sample) : Prop :=
  forall sample, sample ∈ again -> exists before, before ∈ held ∧
    before.timestamp ≤ sample.timestamp ∧ IsNear window before.timestamp sample.timestamp

theorem AreApart.le_of_mem {first sample : Sample} (apart : AreApart window (first :: held))
    (isHeld : sample ∈ first :: held) : first.timestamp ≤ sample.timestamp := by
  rcases List.mem_cons.mp isHeld with rfl | isLater
  · exact Int64.le_refl _
  · exact Int64.le_of_lt (lt_of_not_isNear ((List.pairwise_cons.mp apart).1 sample isLater))

theorem thinAfter_of_near {last : Timestamp64} {samples : List Sample}
    (near : forall sample, sample ∈ samples -> IsNear window last sample.timestamp) :
    thinAfter (windowMillis window) last samples = [] := by
  induction samples with
  | nil => rfl
  | cons sample rest inductionHypothesis =>
      rw [thinAfter_cons_of_isNear (near sample List.mem_cons_self)]
      exact inductionHypothesis fun other isLater => near other (List.mem_cons_of_mem _ isLater)

theorem thinAfter_of_apart {last : Sample} (apart : AreApart window (last :: held)) :
    thinAfter (windowMillis window) last.timestamp held = held := by
  induction held generalizing last with
  | nil => rfl
  | cons sample rest inductionHypothesis =>
      rcases List.pairwise_cons.mp apart with ⟨fromLast, restApart⟩
      rw [thinAfter_cons_of_not_isNear (fromLast sample List.mem_cons_self),
        inductionHypothesis restApart]

/-- Samples that are not earlier than the next held one are not covered by the last one. -/
theorem IsCovered.of_cons {last next : Sample}
    (covered : IsCovered window (last :: held) again)
    (far : ¬ IsNear window last.timestamp next.timestamp)
    (notEarlier : forall sample, sample ∈ again -> next.timestamp ≤ sample.timestamp) :
    IsCovered window held again := by
  intro sample isAgain
  rcases covered sample isAgain with ⟨before, isHeld, notLater, near⟩
  rcases List.mem_cons.mp isHeld with rfl | isHeld
  · exact absurd (near.between (Int64.le_refl _) (notEarlier sample isAgain)) far
  · exact ⟨before, isHeld, notLater, near⟩

/-- The walk after a held sample keeps the other held ones and none that is covered. -/
theorem thinAfter_interleave_of_covered {last : Sample} (apart : AreApart window (last :: held))
    (inOrder : InOrder again) (covered : IsCovered window (last :: held) again) :
    thinAfter (windowMillis window) last.timestamp (interleave held again) = held := by
  fun_induction interleave held again generalizing last with
  | case1 again =>
      apply thinAfter_of_near
      intro sample isAgain
      rcases covered sample isAgain with ⟨before, isHeld, _, near⟩
      rwa [List.mem_singleton.mp isHeld] at near
  | case2 held notEmpty => exact thinAfter_of_apart apart
  | case3 head rest other others before inductionHypothesis =>
      -- A sample before the next held one can only be covered by the last one.
      have near : IsNear window last.timestamp other.timestamp := by
        rcases covered other List.mem_cons_self with ⟨cover, isHeld, notLater, near⟩
        rcases List.mem_cons.mp isHeld with rfl | isLater
        · exact near
        · have fromHead := AreApart.le_of_mem (List.pairwise_cons.mp apart).2 isLater
          exact absurd before (Int64.not_lt.mpr (Int64.le_trans fromHead notLater))
      rw [thinAfter_cons_of_isNear near]
      exact inductionHypothesis apart (List.pairwise_cons.mp inOrder).2
        fun sample isLater => covered sample (List.mem_cons_of_mem _ isLater)
  | case4 head rest other others notBefore inductionHypothesis =>
      rcases List.pairwise_cons.mp apart with ⟨fromLast, restApart⟩
      have far := fromLast head List.mem_cons_self
      have notEarlier : forall sample, sample ∈ other :: others ->
          head.timestamp ≤ sample.timestamp := by
        have toOther : head.timestamp ≤ other.timestamp := Int64.not_lt.mp notBefore
        intro sample isAgain
        rcases List.mem_cons.mp isAgain with rfl | isLater
        · exact toOther
        · exact Int64.le_trans toOther ((List.pairwise_cons.mp inOrder).1 sample isLater)
      rw [thinAfter_cons_of_not_isNear far,
        inductionHypothesis restApart inOrder (covered.of_cons far notEarlier)]

/-- Held samples that are apart stay as they are when covered ones are merged into them. -/
theorem samplesWithin_of_covered (apart : AreApart window held) (inOrder : InOrder again)
    (covered : IsCovered window held again) :
    samplesWithin (windowMillis window) held again = held := by
  cases again with
  | nil =>
      rw [samplesWithin, interleave_nil]
      cases held with
      | nil => rfl
      | cons first rest => exact congrArg (List.cons first) (thinAfter_of_apart apart)
  | cons other others =>
      rcases covered other List.mem_cons_self with ⟨cover, isHeld, notLater, _⟩
      cases held with
      | nil => cases isHeld
      | cons first rest =>
          have notBefore := Int64.le_trans (apart.le_of_mem isHeld) notLater
          rw [samplesWithin, interleave, if_neg (Int64.not_lt.mpr notBefore), thin,
            thinAfter_interleave_of_covered apart inOrder covered]

theorem IsCovered.mono {more : List Sample} (covered : IsCovered window held more)
    (among : again ⊆ more) : IsCovered window held again :=
  fun sample isAgain => covered sample (among isAgain)

theorem AreApart.inOrder (apart : AreApart window held) : InOrder held :=
  List.Pairwise.imp (fun far => Int64.le_of_lt (lt_of_not_isNear far)) apart

/-- Samples that are apart stay as they are when they come again. -/
theorem AreApart.samplesWithin_self (apart : AreApart window held) :
    samplesWithin (windowMillis window) held held = held :=
  samplesWithin_of_covered apart apart.inOrder
    fun sample isHeld => ⟨sample, isHeld, Int64.le_refl _, isNear_of_le (Int64.le_refl _)⟩

/-- Two series in order are absorbed by what they come to, whether their samples are apart or not. -/
theorem samplesWithin_absorbs (window : Duration) {first second : List Sample}
    (firstInOrder : InOrder first) (secondInOrder : InOrder second) :
    Absorbs (samplesWithin (windowMillis window)) first second := by
  have apart : AreApart window (samplesWithin (windowMillis window) first second) :=
    List.pairwise_map.mp (isThinned_samplesWithin firstInOrder secondInOrder).apart
  have covered : IsCovered window (samplesWithin (windowMillis window) first second)
      (first ++ second) := fun sample => exists_kept_near firstInOrder secondInOrder
  constructor
  · exact samplesWithin_of_covered apart firstInOrder (covered.mono (List.subset_append_left _ _))
  · exact samplesWithin_of_covered apart secondInOrder (covered.mono (List.subset_append_right _ _))

/-- Under a window that is not cut, the samples of a spaced series are apart. -/
theorem areApart_of_spaced (inReach : window.millis < Nat.pow 2 63 - 1) {stream : SampleStream}
    (spaced : stream.IsSpaced window) : AreApart window stream.values := by
  refine spaced.pairwise.imp fun {first second} follows near => ?_
  have within := (isNear_iff inReach).mp near
  unfold Timestamp64.FollowsApart Duration.totalNanos nanosPerSecond at follows
  unfold Duration.millis at within
  omega

end Samples

/-! ## Matrices -/

/-- A matrix without repeated label sets is given by its label sets and what it holds of each. -/
theorem eq_map_samplesOf? {streams : List SampleStream}
    (distinct : (streams.map SampleStream.metric).Nodup) :
    streams = (streams.map SampleStream.metric).map fun metric =>
      ⟨metric, (samplesOf? metric streams).getD []⟩ := by
  rw [List.map_map]
  refine (List.map_id _).symm.trans (List.map_congr_left fun stream isStream => ?_)
  rw [Function.comp_apply, (samplesOf?_eq_some_iff distinct).mpr isStream]
  rfl

/-- A matrix stays as it is when another one is merged into it of whose series it holds all, and whose
samples it absorbs. -/
theorem matrices_eq_left {width : Int} {held again : List SampleStream}
    (heldDistinct : (held.map SampleStream.metric).Nodup)
    (againDistinct : (again.map SampleStream.metric).Nodup)
    (absorbed : forall stream, stream ∈ again -> exists kept,
      samplesOf? stream.metric held = some kept ∧ samplesWithin width kept stream.values = kept) :
    matrices width held again = held := by
  have sameMetrics : (matrices width held again).map SampleStream.metric =
      held.map SampleStream.metric := by
    rw [matrices_metrics, unmetBy_eq_nil, List.append_nil]
    intro metric isAgain
    rw [List.map_id] at isAgain
    rcases List.mem_map.mp isAgain with ⟨stream, isStream, rfl⟩
    rcases absorbed stream isStream with ⟨kept, isHeld, _⟩
    by_contra missing
    rw [samplesOf?_eq_none_iff.mpr missing] at isHeld
    cases isHeld
  have sameSamples (metric : LabelSet) :
      samplesOf? metric (matrices width held again) = samplesOf? metric held := by
    rw [samplesOf?_matrices_of_distinct heldDistinct againDistinct]
    cases found : samplesOf? metric again with
    | none => exact Option.merge_none_right
    | some values =>
        rcases exists_stream_of_samplesOf? found with ⟨stream, isStream, rfl, rfl⟩
        rcases absorbed stream isStream with ⟨kept, isHeld, same⟩
        rw [isHeld, Option.merge_some_some, same]
  rw [eq_map_samplesOf? (matrices_distinct heldDistinct again), sameMetrics]
  simp only [sameSamples]
  exact (eq_map_samplesOf? heldDistinct).symm

/-- What two matrices hold of a series, if anything, absorbs what either of them holds of it. -/
theorem merge_absorbs {window : Duration} {left right : Option (List Sample)}
    (apart : forall values, left = some values ∨ right = some values -> AreApart window values)
    {values : List Sample} (isThere : left = some values ∨ right = some values) :
    exists kept, Option.merge (samplesWithin (windowMillis window)) left right = some kept ∧
      samplesWithin (windowMillis window) kept values = kept := by
  cases left with
  | none =>
      cases right with
      | none => rcases isThere with none | none <;> cases none
      | some other =>
          rcases isThere with none | same
          · cases none
          · cases same
            exact ⟨values, rfl, (apart values (.inr rfl)).samplesWithin_self⟩
  | some one =>
      cases right with
      | none =>
          rcases isThere with same | none
          · cases same
            exact ⟨values, rfl, (apart values (.inl rfl)).samplesWithin_self⟩
          · cases none
      | some other =>
          have absorbs := samplesWithin_absorbs window (apart one (.inl rfl)).inOrder
            (apart other (.inr rfl)).inOrder
          refine ⟨_, rfl, ?_⟩
          rcases isThere with same | same
          · cases same
            exact absorbs.1
          · cases same
            exact absorbs.2

theorem matrices_absorb {window : Duration} (inReach : window.millis < Nat.pow 2 63 - 1)
    {first second : List SampleStream} (firstWellFormed : WellFormedMatrix window first)
    (secondWellFormed : WellFormedMatrix window second) :
    Absorbs (matrices (windowMillis window)) first second := by
  have apart {metric : LabelSet} (values : List Sample)
      (isThere : samplesOf? metric first = some values ∨ samplesOf? metric second = some values) :
      AreApart window values := by
    rcases isThere with found | found
    · rcases exists_stream_of_samplesOf? found with ⟨stream, isStream, _, rfl⟩
      exact areApart_of_spaced inReach (firstWellFormed.spaced stream isStream)
    · rcases exists_stream_of_samplesOf? found with ⟨stream, isStream, _, rfl⟩
      exact areApart_of_spaced inReach (secondWellFormed.spaced stream isStream)
  let merged := matrices (windowMillis window) first second
  have held : forall metric, samplesOf? metric merged =
      Option.merge (samplesWithin (windowMillis window)) (samplesOf? metric first)
        (samplesOf? metric second) :=
    samplesOf?_matrices_of_distinct firstWellFormed.distinct secondWellFormed.distinct
  have mergedDistinct : (merged.map SampleStream.metric).Nodup :=
    matrices_distinct firstWellFormed.distinct second
  constructor
  · apply matrices_eq_left mergedDistinct firstWellFormed.distinct
    intro stream isStream
    rw [held]
    exact merge_absorbs apart (.inl ((samplesOf?_eq_some_iff firstWellFormed.distinct).mpr isStream))
  · apply matrices_eq_left mergedDistinct secondWellFormed.distinct
    intro stream isStream
    rw [held]
    exact merge_absorbs apart (.inr ((samplesOf?_eq_some_iff secondWellFormed.distinct).mpr isStream))

/-- Whatever two lists of label values or of label sets come to stays as it is when either of them comes
again, and so does what two vectors come to.  What two matrices come to stays as it is if they repeat no
series, their series are spaced, and the window is smaller than the greatest distance that is told
apart. -/
theorem merges_absorb_redelivery (window : Duration) :
    (forall first second, Absorbs labelValues first second) ∧
      (forall first second, Absorbs labelSets first second) ∧
      (forall first second, ResultsAbsorb window (.vector first) (.vector second)) ∧
      (window.millis < Nat.pow 2 63 - 1 -> forall first second, WellFormedMatrix window first ->
        WellFormedMatrix window second -> ResultsAbsorb window (.matrix first) (.matrix second)) := by
  refine ⟨union_absorbs, union_absorbs, ?_, ?_⟩
  · exact fun first second => (vectors_absorb first second).results fun _ _ => rfl
  · intro inReach first second firstWellFormed secondWellFormed
    exact (matrices_absorb inReach firstWellFormed secondWellFormed).results fun _ _ => rfl

/-- Two replicas that share a series, of which one sample is dropped from each, and have a series each that
is merged for the first time when it comes again. -/
theorem merges_absorb_redelivery_replicas :
    let labels : String -> LabelSet := fun job => NameMap.empty.insert "job" job
    let window := Duration.ofSeconds 5
    let first : List SampleStream :=
      [⟨labels "api", [⟨0, 1⟩, ⟨62000, 2⟩]⟩, ⟨labels "node", [⟨0, 1⟩, ⟨6000, 2⟩]⟩]
    let second : List SampleStream :=
      [⟨labels "db", [⟨3000, 1⟩]⟩, ⟨labels "api", [⟨4000, 3⟩, ⟨9500, 4⟩, ⟨60000, 5⟩]⟩]
    let merged : QueryResult := .matrix [⟨labels "api", [⟨0, 1⟩, ⟨9500, 4⟩, ⟨60000, 5⟩]⟩,
      ⟨labels "node", [⟨0, 1⟩, ⟨6000, 2⟩]⟩, ⟨labels "db", [⟨3000, 1⟩]⟩]
    window.millis < Nat.pow 2 63 - 1 ∧ WellFormedMatrix window first ∧
      WellFormedMatrix window second ∧
      results window (.matrix first) (.matrix second) = .ok merged ∧
      results window merged (.matrix first) = .ok merged ∧
      results window merged (.matrix second) = .ok merged := by
  intro labels window first second merged
  have inReach : window.millis < Nat.pow 2 63 - 1 := by decide
  have firstWellFormed : WellFormedMatrix window first := by
    refine ⟨by decide, ?_⟩
    unfold SampleStream.IsSpaced
    decide
  have secondWellFormed : WellFormedMatrix window second := by
    refine ⟨by decide, ?_⟩
    unfold SampleStream.IsSpaced
    decide
  have isMerged : results window (.matrix first) (.matrix second) = .ok merged := by
    decide +kernel
  rcases (merges_absorb_redelivery window).2.2.2 inReach first second firstWellFormed
    secondWellFormed with ⟨other, isOther, firstAgain, secondAgain⟩
  cases isOther.symm.trans isMerged
  exact ⟨inReach, firstWellFormed, secondWellFormed, isMerged, firstAgain, secondAgain⟩

/-- Under the narrowest window that is too wide, a series of two samples is spaced and yet not absorbed. -/
example :
    let window := Duration.ofMillis (Nat.pow 2 63 - 1)
    let ends : List Sample := [⟨Int64.minValue, 1⟩, ⟨Int64.maxValue, 2⟩]
    Timestamp64.FollowsApart window Int64.minValue Int64.maxValue ∧
      samples window ends ends = [⟨Int64.minValue, 1⟩] := by
  decide +kernel

end Merge
end QueryFederation
