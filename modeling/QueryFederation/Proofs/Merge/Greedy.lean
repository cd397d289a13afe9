import Mathlib.Data.List.Sort
import QueryFederation.Proofs.Merge.Sources
import QueryFederation.Proofs.Merge.Thinning

/-!
# The greedy choice among sorted samples

Two lists in the order of their timestamps are merged as if all their samples were first sorted and then
gone through once, each being kept if it lies more than the window after the last one kept.  The sort is
stable: of samples with one timestamp those of the first list come first.  The distances of this choice
are exact integers, so the window must be smaller than the greatest distance that a merge tells apart.
A wider one makes all timestamps count as one.

Lists that are not in order have no such description.  What is merged from them is spaced all the same,
because the walk keeps a sample for its distance from the last one kept and for nothing else.
-/

namespace QueryFederation
namespace Merge

variable {window : Duration}

/-! ## The stable sort of two lists -/

/-- Whether a sample may stand before another one in the order of the timestamps. -/
def isNotLater (first second : Sample) : Bool :=
  decide (first.timestamp ≤ second.timestamp)

theorem isNotLater_trans (first second third : Sample) (early : isNotLater first second = true)
    (late : isNotLater second third = true) : isNotLater first third = true :=
  decide_eq_true (Int64.le_trans (of_decide_eq_true early) (of_decide_eq_true late))

theorem isNotLater_total (first second : Sample) :
    (isNotLater first second || isNotLater second first) = true := by
  rw [Bool.or_eq_true, isNotLater, isNotLater, decide_eq_true_eq, decide_eq_true_eq]
  exact Int64.le_total _ _

theorem pairwise_isNotLater_iff {samples : List Sample} :
    samples.Pairwise (fun first second => isNotLater first second = true) <-> InOrder samples := by
  unfold InOrder isNotLater
  simp only [decide_eq_true_eq]

theorem interleave_nil (samples : List Sample) : interleave samples [] = samples := by
  cases samples with
  | nil => rw [interleave]
  | cons sample rest =>
      rw [interleave]
      exact List.cons_ne_nil sample rest

/-- A sample in front of the first list, not later than all others there, takes its place before all
samples that are not earlier. -/
theorem interleave_cons {sample : Sample} {first second before after : List Sample}
    (walk : interleave first second = before ++ after)
    (earlier : forall other, other ∈ before -> other.timestamp < sample.timestamp)
    (notEarlier : forall other, other ∈ after -> sample.timestamp ≤ other.timestamp)
    (inFront : forall other, other ∈ first -> sample.timestamp ≤ other.timestamp) :
    interleave (sample :: first) second = before ++ sample :: after := by
  induction before generalizing second with
  | nil =>
      rw [List.nil_append] at walk ⊢
      cases second with
      | nil => rw [interleave_nil, ← walk, interleave_nil]
      | cons other others =>
          have isAfter : other ∈ after := walk ▸ mem_interleave.mpr (.inr List.mem_cons_self)
          rw [interleave, if_neg (Int64.not_lt.mpr (notEarlier other isAfter)), walk]
  | cons next others inductionHypothesis =>
      have nextEarlier := earlier next List.mem_cons_self
      have notInFront : next ∉ first := fun isFirst =>
        Int64.not_lt.mpr (inFront next isFirst) nextEarlier
      have othersEarlier : forall other, other ∈ others -> other.timestamp < sample.timestamp :=
        fun other isOther => earlier other (List.mem_cons_of_mem _ isOther)
      cases second with
      | nil =>
          rw [interleave_nil] at walk
          exact absurd (walk ▸ List.mem_cons_self) notInFront
      | cons head rest =>
          -- The next sample of the walk does not come from the first list.
          have taken : head = next ∧ interleave first rest = others ++ after := by
            cases first with
            | nil =>
                rw [interleave] at walk ⊢
                exact List.cons.inj walk
            | cons front more =>
                rw [interleave] at walk
                split at walk
                · exact List.cons.inj walk
                · rw [(List.cons.inj walk).1] at notInFront
                  exact absurd List.mem_cons_self notInFront
          rw [interleave, taken.1, if_pos nextEarlier, inductionHypothesis taken.2 othersEarlier]
          rfl

/-- Lists in order are walked in the order of the stable sort. -/
theorem interleave_eq_mergeSort {first second : List Sample} (firstInOrder : InOrder first)
    (secondInOrder : InOrder second) :
    interleave first second = (first ++ second).mergeSort isNotLater := by
  induction first with
  | nil =>
      rw [interleave, List.nil_append,
        List.mergeSort_of_pairwise (pairwise_isNotLater_iff.mpr secondInOrder)]
  | cons sample rest inductionHypothesis =>
      rcases List.pairwise_cons.mp firstInOrder with ⟨inFront, restInOrder⟩
      rcases List.mergeSort_cons isNotLater_trans isNotLater_total sample (rest ++ second) with
        ⟨before, after, sorted, sortedRest, earlier⟩
      have inOrder : InOrder (before ++ sample :: after) := by
        rw [← sorted]
        exact pairwise_isNotLater_iff.mp
          (List.pairwise_mergeSort isNotLater_trans isNotLater_total _)
      rw [List.cons_append, sorted]
      apply interleave_cons ((inductionHypothesis restInOrder).trans sortedRest) _ _ inFront
      · intro other isBefore
        have notNotLater := earlier other isBefore
        rw [Bool.not_eq_true', isNotLater, decide_eq_false_iff_not] at notNotLater
        exact Int64.not_le.mp notNotLater
      · exact (List.pairwise_cons.mp (List.pairwise_append.mp inOrder).2.1).1

/-- A stable sort leaves samples with one timestamp in their order. -/
theorem filter_mergeSort (samples : List Sample) (time : Timestamp64) :
    (samples.mergeSort isNotLater).filter (fun sample => sample.timestamp = time) =
      samples.filter (fun sample => sample.timestamp = time) := by
  have atTime : (samples.filter fun sample => sample.timestamp = time).Pairwise
      (fun first second => isNotLater first second = true) := by
    apply List.pairwise_of_forall_mem_list
    intro first isFirst second isSecond
    have firstTime := of_decide_eq_true (List.mem_filter.mp isFirst).2
    have secondTime := of_decide_eq_true (List.mem_filter.mp isSecond).2
    rw [isNotLater, firstTime, secondTime]
    exact decide_eq_true (Int64.le_refl time)
  have kept := (List.sublist_mergeSort isNotLater_trans isNotLater_total atTime
    List.filter_sublist).filter fun sample => sample.timestamp = time
  simp only [List.filter_filter, Bool.and_self] at kept
  have sameLength := ((List.mergeSort_perm samples isNotLater).filter
    fun sample => sample.timestamp = time).length_eq
  exact (kept.eq_of_length sameLength.symm).symm

/-! ## The greedy choice -/

/-- Keep a candidate if it is the first one or lies more than a number of milliseconds after the last one
kept. -/
def keepApart (millis : Nat) (kept : List Sample) (candidate : Sample) : List Sample :=
  match kept.getLast? with
  | some last =>
      if (millis : Int) < candidate.timestamp.toInt - last.timestamp.toInt then kept ++ [candidate]
      else kept
  | none => [candidate]

/-- Go through samples and keep each one that lies more than a number of milliseconds after the last one
kept. -/
def greedy (millis : Nat) (samples : List Sample) : List Sample :=
  samples.foldl (keepApart millis) []

/-- A window that is not cut drops what lies within it by exact distance. -/
theorem isNear_iff (inReach : window.millis < Nat.pow 2 63 - 1) {last candidate : Timestamp64} :
    IsNear window last candidate <-> candidate.toInt - last.toInt ≤ window.millis := by
  unfold IsNear distanceAfter windowMillis greatestDistance
  rw [Nat.pow_eq] at inReach ⊢
  omega

theorem foldl_keepApart (inReach : window.millis < Nat.pow 2 63 - 1) (kept : List Sample) (last : Sample)
    (samples : List Sample) :
    samples.foldl (keepApart window.millis) (kept ++ [last]) =
      kept ++ last :: thinAfter (windowMillis window) last.timestamp samples := by
  induction samples generalizing kept last with
  | nil => rfl
  | cons sample rest inductionHypothesis =>
      rw [List.foldl_cons, keepApart, List.getLast?_concat]
      dsimp only
      by_cases near : IsNear window last.timestamp sample.timestamp
      · rw [if_neg (Int.not_lt.mpr ((isNear_iff inReach).mp near)), inductionHypothesis,
          thinAfter_cons_of_isNear near]
      · rw [if_pos (Int.not_le.mp fun within => near ((isNear_iff inReach).mpr within)),
          inductionHypothesis, thinAfter_cons_of_not_isNear near, List.append_assoc]
        rfl

theorem thin_eq_greedy (inReach : window.millis < Nat.pow 2 63 - 1) (samples : List Sample) :
    thin (windowMillis window) samples = greedy window.millis samples := by
  cases samples with
  | nil => rfl
  | cons sample rest => exact (foldl_keepApart inReach [] sample rest).symm

/-- Every sample of merged lists lies within the window of a kept one that is not later. -/
theorem exists_kept_within (inReach : window.millis < Nat.pow 2 63 - 1) {first second : List Sample}
    (firstInOrder : InOrder first) (secondInOrder : InOrder second) {sample : Sample}
    (isSample : sample ∈ first ++ second) :
    exists kept, kept ∈ samples window first second ∧
      0 ≤ sample.timestamp.toInt - kept.timestamp.toInt ∧
      sample.timestamp.toInt - kept.timestamp.toInt ≤ window.millis := by
  rcases exists_kept_near firstInOrder secondInOrder isSample with ⟨kept, isKept, notLater, near⟩
  rw [Int64.le_iff_toInt_le] at notLater
  exact ⟨kept, isKept, Int.sub_nonneg_of_le notLater, (isNear_iff inReach).mp near⟩

/-- Two lists in order are merged by the greedy choice among their samples in the order of the stable
sort.  So what is kept are samples of the lists, and each sample of the lists lies within the window of a
kept one that is not later. -/
theorem samples_eq_greedy (inReach : window.millis < Nat.pow 2 63 - 1) {first second : List Sample}
    (firstInOrder : InOrder first) (secondInOrder : InOrder second) :
    samples window first second =
        greedy window.millis ((first ++ second).mergeSort isNotLater) ∧
      (forall time, ((first ++ second).mergeSort isNotLater).filter
          (fun sample => sample.timestamp = time) =
        first.filter (fun sample => sample.timestamp = time) ++
          second.filter (fun sample => sample.timestamp = time)) ∧
      (forall kept, kept ∈ samples window first second -> kept ∈ first ++ second) ∧
      forall sample, sample ∈ first ++ second ->
        exists kept, kept ∈ samples window first second ∧
          0 ≤ sample.timestamp.toInt - kept.timestamp.toInt ∧
          sample.timestamp.toInt - kept.timestamp.toInt ≤ window.millis := by
  refine ⟨?_, ?_, ?_, ?_⟩
  · rw [samples, samplesWithin, interleave_eq_mergeSort firstInOrder secondInOrder,
      thin_eq_greedy inReach]
  · intro time
    rw [filter_mergeSort, List.filter_append]
  · intro kept isKept
    exact List.mem_append.mpr (mem_of_mem_samplesWithin isKept)
  · intro sample isSample
    exact exists_kept_within inReach firstInOrder secondInOrder isSample

/-- Timestamps that repeat within a list and across both, and the two ends of the range. -/
theorem samples_eq_greedy_repeated :
    let window := Duration.ofSeconds 5
    let first : List Sample := [⟨Int64.minValue, 1⟩, ⟨0, 1⟩, ⟨0, 2⟩, ⟨5001, 1⟩]
    let second : List Sample := [⟨0, 3⟩, ⟨5000, 1⟩, ⟨5001, 2⟩, ⟨Int64.maxValue, 1⟩]
    window.millis < Nat.pow 2 63 - 1 ∧ InOrder first ∧ InOrder second ∧
      samples window first second =
        greedy window.millis ((first ++ second).mergeSort isNotLater) ∧
      exists kept, kept ∈ samples window first second ∧ 0 ≤ (5000 : Int) - kept.timestamp.toInt ∧
        (5000 : Int) - kept.timestamp.toInt ≤ window.millis := by
  intro window first second
  have inReach : window.millis < Nat.pow 2 63 - 1 := by decide
  have firstInOrder : InOrder first := by unfold InOrder; decide
  have secondInOrder : InOrder second := by unfold InOrder; decide
  rcases samples_eq_greedy inReach firstInOrder secondInOrder with ⟨choice, _, _, within⟩
  exact ⟨inReach, firstInOrder, secondInOrder, choice, within ⟨5000, 1⟩ (by simp [first, second])⟩

/-! ## Lists in any order -/

theorem thinAfter_of_isNear {last : Timestamp64} (near : forall candidate, IsNear window last candidate)
    (samples : List Sample) : thinAfter (windowMillis window) last samples = [] := by
  induction samples with
  | nil => rfl
  | cons sample rest inductionHypothesis =>
      rw [thinAfter_cons_of_isNear (near sample.timestamp), inductionHypothesis]

/-- In a window as wide as the greatest distance told apart, all timestamps are near each other. -/
theorem isNear_of_wide (wide : Nat.pow 2 63 - 1 ≤ window.millis) (last candidate : Timestamp64) :
    IsNear window last candidate := by
  unfold IsNear distanceAfter windowMillis greatestDistance
  rw [Nat.pow_eq] at wide ⊢
  omega

/-- Whatever two lists are merged, what is kept ascends, and any two kept samples are further apart than
the window, its nanoseconds included.  At most one sample is kept if the window is as wide as the greatest
distance told apart. -/
theorem samples_followApart (window : Duration) (first second : List Sample) :
    (samples window first second).Pairwise (fun earlier later =>
        earlier.timestamp < later.timestamp ∧
          Timestamp64.FollowsApart window earlier.timestamp later.timestamp) ∧
      (Nat.pow 2 63 - 1 ≤ window.millis -> (samples window first second).length ≤ 1) := by
  constructor
  · have apart := List.isChain_iff_pairwise.mp (samplesWithin_isChain window first second)
    exact (List.pairwise_map.mp apart).imp fun follows => ⟨follows.lt, follows⟩
  · intro wide
    unfold samples samplesWithin
    cases interleave first second with
    | nil => exact Nat.zero_le 1
    | cons sample rest =>
        rw [thin, thinAfter_of_isNear (isNear_of_wide wide sample.timestamp)]
        exact Nat.le_refl 1

/-- The whole range of timestamps under the narrowest window that is wider than all distances told apart,
and a list that is not in order under a window of a millisecond and a half. -/
theorem samples_followApart_unsorted :
    let wide := Duration.ofMillis (Nat.pow 2 63 - 1)
    let narrow : Duration := ⟨0, 1500000, by decide, by decide⟩
    let ends : List Sample := [⟨Int64.minValue, 1⟩, ⟨Int64.maxValue, 1⟩]
    let turned : List Sample := [⟨4, 1⟩, ⟨2, 1⟩, ⟨5, 1⟩, ⟨6, 1⟩]
    Nat.pow 2 63 - 1 ≤ wide.millis ∧ (samples wide ends turned).length ≤ 1 ∧
      (samples narrow turned ends).Pairwise fun earlier later =>
        earlier.timestamp < later.timestamp ∧
          Timestamp64.FollowsApart narrow earlier.timestamp later.timestamp := by
  intro wide narrow ends turned
  have isWide : Nat.pow 2 63 - 1 ≤ wide.millis := by decide
  exact ⟨isWide, (samples_followApart wide ends turned).2 isWide,
    (samples_followApart narrow turned ends).1⟩

end Merge
end QueryFederation
