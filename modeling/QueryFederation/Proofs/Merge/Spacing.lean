import Mathlib.Data.List.Chain
import Mathlib.Data.List.Nodup
import QueryFederation.Merge.Results

/-!
# Spaced matrices

A matrix is well-formed for a window if it holds no series twice and the samples of each series follow
each other at distances greater than the window.  The window is meant exactly, with its nanoseconds;
timestamps are whole milliseconds, so it makes no difference that the merge counts whole milliseconds
only.

A merge of two lists of samples is spaced whatever the lists are.  A series that only one of two
matrices holds is taken over as it is, so a merge of matrices is well-formed if both of them are.
-/

namespace QueryFederation

namespace Duration

/-- The nanoseconds of a length. -/
def totalNanos (duration : Duration) : Nat :=
  duration.seconds * nanosPerSecond + duration.nanos

end Duration

/-- Whether a timestamp follows another one at a distance greater than a window. -/
def Timestamp64.FollowsApart (window : Duration) (first second : Timestamp64) : Prop :=
  (window.totalNanos : Int) < (second.toInt - first.toInt) * 1000000

/-- Whether each sample follows the one before it at a distance greater than a window. -/
def SampleStream.IsSpaced (window : Duration) (stream : SampleStream) : Prop :=
  (stream.values.map Sample.timestamp).IsChain (Timestamp64.FollowsApart window)

/-- Whether no series is there twice and all series are spaced. -/
structure WellFormedMatrix (window : Duration) (streams : List SampleStream) : Prop where
  distinct : (streams.map SampleStream.metric).Nodup
  spaced : forall stream, stream ∈ streams -> stream.IsSpaced window

namespace Timestamp64.FollowsApart

theorem trans {window : Duration} {first second third : Timestamp64}
    (early : FollowsApart window first second) (late : FollowsApart window second third) :
    FollowsApart window first third := by
  unfold FollowsApart at early late ⊢
  omega

/-- What follows at a distance is later. -/
theorem lt {window : Duration} {first second : Timestamp64}
    (apart : FollowsApart window first second) : first < second := by
  unfold FollowsApart at apart
  rw [Int64.lt_iff_toInt_lt]
  omega

/-- A smaller window is exceeded sooner. -/
theorem mono {wide narrow : Duration} (notWider : narrow.totalNanos ≤ wide.totalNanos)
    {first second : Timestamp64} (apart : FollowsApart wide first second) :
    FollowsApart narrow first second := by
  unfold FollowsApart at apart ⊢
  omega

instance (window : Duration) :
    Trans (FollowsApart window) (FollowsApart window) (FollowsApart window) :=
  ⟨trans⟩

end Timestamp64.FollowsApart

namespace SampleStream.IsSpaced

/-- In a spaced series any two samples are apart, not only neighbours. -/
theorem pairwise {window : Duration} {stream : SampleStream} (spaced : stream.IsSpaced window) :
    stream.values.Pairwise fun first second =>
      Timestamp64.FollowsApart window first.timestamp second.timestamp :=
  List.pairwise_map.mp (List.isChain_iff_pairwise.mp spaced)

theorem mono {wide narrow : Duration} (notWider : narrow.totalNanos ≤ wide.totalNanos)
    {stream : SampleStream} (spaced : stream.IsSpaced wide) : stream.IsSpaced narrow :=
  List.IsChain.imp (fun _ _ apart => apart.mono notWider) spaced

end SampleStream.IsSpaced

theorem WellFormedMatrix.mono {wide narrow : Duration}
    (notWider : narrow.totalNanos ≤ wide.totalNanos) {streams : List SampleStream}
    (wellFormed : WellFormedMatrix wide streams) : WellFormedMatrix narrow streams where
  distinct := wellFormed.distinct
  spaced := fun stream isStream => (wellFormed.spaced stream isStream).mono notWider

theorem WellFormedMatrix.nil (window : Duration) : WellFormedMatrix window [] where
  distinct := List.nodup_nil
  spaced := fun _ isStream => nomatch isStream

namespace Merge

/-! ## Samples -/

/-- A sample that is not within the window of the last one follows it at a distance greater than the
window. -/
theorem followsApart_of_windowMillis_lt {window : Duration} {last candidate : Timestamp64}
    (exceeds : windowMillis window < distanceAfter last candidate) :
    Timestamp64.FollowsApart window last candidate := by
  unfold windowMillis distanceAfter greatestDistance Duration.millis at exceeds
  rw [Nat.pow_eq] at exceeds
  unfold Timestamp64.FollowsApart Duration.totalNanos nanosPerSecond
  omega

theorem thinAfter_isChain (window : Duration) (last : Sample) (samples : List Sample) :
    ((last :: thinAfter (windowMillis window) last.timestamp samples).map
      Sample.timestamp).IsChain (Timestamp64.FollowsApart window) := by
  induction samples generalizing last with
  | nil => exact .singleton _
  | cons sample rest inductionHypothesis =>
      rw [thinAfter]
      by_cases near : distanceAfter last.timestamp sample.timestamp ≤ windowMillis window
      · rw [if_pos near]
        exact inductionHypothesis last
      · rw [if_neg near]
        refine .cons_cons ?_ (inductionHypothesis sample)
        exact followsApart_of_windowMillis_lt (Int.lt_of_not_ge near)

/-- Merged samples are spaced, whatever they are merged from. -/
theorem samplesWithin_isChain (window : Duration) (first second : List Sample) :
    ((samplesWithin (windowMillis window) first second).map Sample.timestamp).IsChain
      (Timestamp64.FollowsApart window) := by
  unfold samplesWithin
  cases interleave first second with
  | nil => exact .nil
  | cons sample rest => exact thinAfter_isChain window sample rest

/-! ## Matrices -/

/-- Samples are absorbed exactly if the matrix holds their series. -/
theorem absorb?_eq_none_iff (window : Int) (metric : LabelSet) (values : List Sample)
    (streams : List SampleStream) :
    absorb? window metric values streams = none <-> metric ∉ streams.map SampleStream.metric := by
  induction streams with
  | nil => simp [absorb?]
  | cons stream rest inductionHypothesis =>
      rw [absorb?, List.map_cons, List.mem_cons, not_or, ← inductionHypothesis]
      cases absorb? window metric values rest with
      | some absorbed => simp
      | none =>
          by_cases same : stream.metric = metric
          · simp [same]
          · simp [same, Ne.symm same]

/-- Absorbing samples adds no series and changes the order of none. -/
theorem absorb?_metrics {window : Int} {metric : LabelSet} {values : List Sample}
    {streams absorbed : List SampleStream}
    (absorbs : absorb? window metric values streams = some absorbed) :
    absorbed.map SampleStream.metric = streams.map SampleStream.metric := by
  induction streams generalizing absorbed with
  | nil => cases absorbs
  | cons stream rest inductionHypothesis =>
      rw [absorb?] at absorbs
      cases later : absorb? window metric values rest with
      | some absorbedLater =>
          rw [later] at absorbs
          cases absorbs
          rw [List.map_cons, List.map_cons, inductionHypothesis later]
      | none =>
          rw [later] at absorbs
          dsimp only at absorbs
          split at absorbs
          · cases absorbs
            rfl
          · cases absorbs

theorem absorb?_spaced {window : Duration} {metric : LabelSet} {values : List Sample}
    {streams absorbed : List SampleStream}
    (spaced : forall stream, stream ∈ streams -> stream.IsSpaced window)
    (absorbs : absorb? (windowMillis window) metric values streams = some absorbed) :
    forall stream, stream ∈ absorbed -> stream.IsSpaced window := by
  induction streams generalizing absorbed with
  | nil => cases absorbs
  | cons first rest inductionHypothesis =>
      have firstSpaced := spaced first List.mem_cons_self
      have restSpaced : forall stream, stream ∈ rest -> stream.IsSpaced window :=
        fun stream isStream => spaced stream (List.mem_cons_of_mem _ isStream)
      rw [absorb?] at absorbs
      intro stream isStream
      cases later : absorb? (windowMillis window) metric values rest with
      | some absorbedLater =>
          rw [later] at absorbs
          cases absorbs
          rcases List.mem_cons.mp isStream with rfl | inRest
          · exact firstSpaced
          · exact inductionHypothesis restSpaced later stream inRest
      | none =>
          rw [later] at absorbs
          dsimp only at absorbs
          split at absorbs
          · cases absorbs
            rcases List.mem_cons.mp isStream with rfl | inRest
            · exact samplesWithin_isChain window first.values values
            · exact restSpaced stream inRest
          · cases absorbs

theorem addStream_wellFormed {window : Duration} {merged : List SampleStream}
    (wellFormed : WellFormedMatrix window merged) {stream : SampleStream}
    (spaced : stream.IsSpaced window) :
    WellFormedMatrix window (addStream (windowMillis window) merged stream) := by
  unfold addStream
  cases absorbs : absorb? (windowMillis window) stream.metric stream.values merged with
  | some absorbed =>
      refine ⟨?_, absorb?_spaced wellFormed.spaced absorbs⟩
      rw [Option.getD_some, absorb?_metrics absorbs]
      exact wellFormed.distinct
  | none =>
      have new := (absorb?_eq_none_iff _ _ _ _).mp absorbs
      constructor
      · rw [Option.getD_none, List.map_append, List.map_singleton]
        refine List.nodup_append.mpr ⟨wellFormed.distinct, List.nodup_singleton _, ?_⟩
        intro metric before other last same
        rw [same, List.mem_singleton.mp last] at before
        exact new before
      · intro other isStream
        rcases List.mem_append.mp isStream with before | last
        · exact wellFormed.spaced other before
        · rw [List.mem_singleton.mp last]
          exact spaced

/-- Merging two well-formed matrices gives a well-formed matrix. -/
theorem matrices_wellFormed {window : Duration} {first second : List SampleStream}
    (firstWellFormed : WellFormedMatrix window first)
    (spaced : forall stream, stream ∈ second -> stream.IsSpaced window) :
    WellFormedMatrix window (matrices (windowMillis window) first second) := by
  induction second generalizing first with
  | nil => exact firstWellFormed
  | cons stream rest inductionHypothesis =>
      unfold matrices at inductionHypothesis ⊢
      rw [List.foldl_cons]
      apply inductionHypothesis (addStream_wellFormed firstWellFormed (spaced stream List.mem_cons_self))
      intro other isStream
      exact spaced other (List.mem_cons_of_mem _ isStream)

end Merge
end QueryFederation
