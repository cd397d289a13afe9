import Mathlib.Data.List.Pairwise
import QueryFederation.Proofs.Merge.Spacing

/-!
# Thinned timestamps

Which timestamps a merge keeps can be said without walking a list.  The kept ones are apart from each
other, and every other one lies within the window of a kept one before it.  There is only one such
choice: whether a timestamp is kept is decided by those before it.

So a merge of two series keeps what this choice keeps of all their timestamps together.  The running
merge of many series need not, because it has forgotten what it dropped.  A dropped timestamp can be
missed only if three series are entangled: one holds a timestamp that drops another one's, which in
turn would have dropped the third one's, while the first and the third are apart.
-/

namespace QueryFederation
namespace Merge

variable {window : Duration}

/-- Whether a timestamp is dropped when another one is the last one kept. -/
def IsNear (window : Duration) (last candidate : Timestamp64) : Prop :=
  distanceAfter last candidate ≤ windowMillis window

/-! ## Nearness -/

theorem windowMillis_nonneg (window : Duration) : 0 ≤ windowMillis window := by
  unfold windowMillis greatestDistance
  have bound : 0 ≤ ((Nat.pow 2 63 : Nat) : Int) - 1 := by decide
  omega

theorem isNear_of_le {last candidate : Timestamp64} (notLater : candidate ≤ last) :
    IsNear window last candidate := by
  have positive := windowMillis_nonneg window
  rw [Int64.le_iff_toInt_le] at notLater
  unfold IsNear distanceAfter
  omega

theorem lt_of_not_isNear {last candidate : Timestamp64} (far : ¬ IsNear window last candidate) :
    last < candidate := by
  by_contra notBefore
  exact far (isNear_of_le (Int64.not_lt.mp notBefore))

/-- Timestamps between near ones are near. -/
theorem IsNear.between {first last earlier later : Timestamp64} (near : IsNear window first last)
    (above : first ≤ earlier) (below : later ≤ last) : IsNear window earlier later := by
  rw [Int64.le_iff_toInt_le] at above below
  unfold IsNear distanceAfter at near ⊢
  omega

/-- When the window tells any two timestamps apart, it is not cut, and then it tells apart all that
follow each other at a greater distance. -/
theorem not_isNear_of_followsApart {first second last candidate : Timestamp64}
    (told : ¬ IsNear window first second)
    (apart : Timestamp64.FollowsApart window last candidate) : ¬ IsNear window last candidate := by
  have nanos : window.nanos < 1000000000 := window.nanos_lt
  unfold Timestamp64.FollowsApart Duration.totalNanos nanosPerSecond at apart
  unfold IsNear distanceAfter windowMillis greatestDistance Duration.millis at told ⊢
  rw [Nat.pow_eq] at told ⊢
  omega

/-- In a list in which everything later is related to everything earlier, the order of the timestamps
tells which is which. -/
theorem rel_of_lt {relation : Timestamp64 -> Timestamp64 -> Prop} {times : List Timestamp64}
    (related : times.Pairwise relation)
    (ascends : forall first second, relation first second -> first < second)
    {first second : Timestamp64} (isFirst : first ∈ times) (isSecond : second ∈ times)
    (before : first < second) : relation first second := by
  have ordered := List.pairwise_iff_getElem.mp related
  rcases List.getElem_of_mem isFirst with ⟨left, leftInside, rfl⟩
  rcases List.getElem_of_mem isSecond with ⟨right, rightInside, rfl⟩
  rcases Nat.lt_trichotomy left right with inOrder | same | turned
  · exact ordered left right leftInside rightInside inOrder
  · subst same
    exact absurd before Int64.lt_irrefl
  · have after := ascends _ _ (ordered right left rightInside leftInside turned)
    exact absurd before (Int64.lt_asymm after)

/-! ## The choice of the kept timestamps -/

/-- Whether a list holds, in order, those of some timestamps that are kept. -/
structure IsThinned (window : Duration) (present : Timestamp64 -> Prop) (kept : List Timestamp64) :
    Prop where
  present_of_mem : forall time, time ∈ kept -> present time
  apart : kept.Pairwise fun first second => ¬ IsNear window first second
  covered : forall time, present time ->
    time ∈ kept ∨ exists before, before ∈ kept ∧ before < time ∧ IsNear window before time

namespace IsThinned

variable {present : Timestamp64 -> Prop} {kept : List Timestamp64}

theorem ascending (thinned : IsThinned window present kept) : kept.Pairwise (· < ·) :=
  thinned.apart.imp lt_of_not_isNear

theorem not_isNear (thinned : IsThinned window present kept) {first second : Timestamp64}
    (firstKept : first ∈ kept) (secondKept : second ∈ kept) (before : first < second) :
    ¬ IsNear window first second :=
  rel_of_lt thinned.apart (fun _ _ => lt_of_not_isNear) firstKept secondKept before

theorem congr {other : Timestamp64 -> Prop} (thinned : IsThinned window present kept)
    (same : forall time, present time <-> other time) : IsThinned window other kept where
  present_of_mem := fun time isKept => (same time).mp (thinned.present_of_mem time isKept)
  apart := thinned.apart
  covered := fun time isPresent => thinned.covered time ((same time).mpr isPresent)

/-- Whether a timestamp is kept is decided by the kept ones before it. -/
theorem mem_of_mem {other : List Timestamp64} (thinned : IsThinned window present kept)
    (otherThinned : IsThinned window present other) {time : Timestamp64}
    (agree : forall before, before < time -> (before ∈ kept <-> before ∈ other))
    (isKept : time ∈ kept) : time ∈ other := by
  have isPresent := thinned.present_of_mem time isKept
  rcases otherThinned.covered time isPresent with here | ⟨before, inOther, earlier, near⟩
  · exact here
  · have inKept := (agree before earlier).mpr inOther
    exact absurd near (thinned.not_isNear inKept isKept earlier)

theorem mem_iff_mem {other : List Timestamp64} (thinned : IsThinned window present kept)
    (otherThinned : IsThinned window present other) (time : Timestamp64) :
    time ∈ kept <-> time ∈ other := by
  -- The recursion goes to earlier timestamps, of which there are finitely many.
  have agree : forall before, before < time -> (before ∈ kept <-> before ∈ other) := by
    intro before earlier
    exact mem_iff_mem thinned otherThinned before
  constructor
  · exact thinned.mem_of_mem otherThinned agree
  · exact otherThinned.mem_of_mem thinned fun before earlier => (agree before earlier).symm
termination_by (time.toInt + 2 ^ 63).toNat
decreasing_by
  have bound := Int64.le_toInt before
  rw [Int64.lt_iff_toInt_lt] at earlier
  omega

/-- The kept timestamps are determined by the timestamps they are chosen from. -/
theorem unique {other : List Timestamp64} (thinned : IsThinned window present kept)
    (otherThinned : IsThinned window present other) : kept = other := by
  have nodup : forall {times : List Timestamp64}, times.Pairwise (· < ·) -> times.Nodup := by
    intro times ascending
    refine List.Pairwise.imp ?_ ascending
    rintro first second before rfl
    exact Int64.lt_irrefl before
  have perm : kept.Perm other :=
    (List.perm_ext_iff_of_nodup (nodup thinned.ascending) (nodup otherThinned.ascending)).mpr
      (thinned.mem_iff_mem otherThinned)
  apply List.Perm.eq_of_pairwise ?_ thinned.ascending otherThinned.ascending perm
  intro first second _ _ before after
  exact absurd after (Int64.lt_asymm before)

end IsThinned

/-! ## What a merge of two series keeps -/

/-- Whether samples are in the order of their timestamps. -/
def InOrder (samples : List Sample) : Prop :=
  samples.Pairwise fun first second => first.timestamp ≤ second.timestamp

theorem interleave_perm (first second : List Sample) :
    (interleave first second).Perm (first ++ second) := by
  fun_induction interleave first second with
  | case1 second => exact .refl _
  | case2 first notEmpty => rw [List.append_nil]
  | case3 head rest other others before inductionHypothesis =>
      exact (inductionHypothesis.cons other).trans List.perm_middle.symm
  | case4 head rest other others notBefore inductionHypothesis =>
      exact inductionHypothesis.cons head

theorem mem_interleave {sample : Sample} {first second : List Sample} :
    sample ∈ interleave first second <-> sample ∈ first ∨ sample ∈ second := by
  rw [(interleave_perm first second).mem_iff, List.mem_append]

theorem interleave_inOrder {first second : List Sample} (firstInOrder : InOrder first)
    (secondInOrder : InOrder second) : InOrder (interleave first second) := by
  fun_induction interleave first second with
  | case1 second => exact secondInOrder
  | case2 first notEmpty => exact firstInOrder
  | case3 head rest other others before inductionHypothesis =>
      have othersInOrder := List.pairwise_cons.mp secondInOrder
      refine List.pairwise_cons.mpr ⟨?_, inductionHypothesis firstInOrder othersInOrder.2⟩
      intro sample isLater
      rcases mem_interleave.mp isLater with inFirst | inOthers
      · have fromHead : head.timestamp ≤ sample.timestamp := by
          rcases List.mem_cons.mp inFirst with rfl | inRest
          · exact Int64.le_refl _
          · exact (List.pairwise_cons.mp firstInOrder).1 sample inRest
        exact Int64.le_of_lt (Int64.lt_of_lt_of_le before fromHead)
      · exact othersInOrder.1 sample inOthers
  | case4 head rest other others notBefore inductionHypothesis =>
      have restInOrder := List.pairwise_cons.mp firstInOrder
      refine List.pairwise_cons.mpr ⟨?_, inductionHypothesis restInOrder.2 secondInOrder⟩
      intro sample isLater
      have toOther : head.timestamp ≤ other.timestamp := Int64.not_lt.mp notBefore
      rcases mem_interleave.mp isLater with inRest | inSecond
      · exact restInOrder.1 sample inRest
      · rcases List.mem_cons.mp inSecond with rfl | inOthers
        · exact toOther
        · exact Int64.le_trans toOther ((List.pairwise_cons.mp secondInOrder).1 sample inOthers)

theorem thinAfter_cons_of_isNear {last : Timestamp64} {sample : Sample} {rest : List Sample}
    (near : IsNear window last sample.timestamp) :
    thinAfter (windowMillis window) last (sample :: rest) =
      thinAfter (windowMillis window) last rest :=
  if_pos near

theorem thinAfter_cons_of_not_isNear {last : Timestamp64} {sample : Sample} {rest : List Sample}
    (far : ¬ IsNear window last sample.timestamp) :
    thinAfter (windowMillis window) last (sample :: rest) =
      sample :: thinAfter (windowMillis window) sample.timestamp rest :=
  if_neg far

/-- Of two single samples within the window of each other the earlier one is kept. -/
theorem samplesWithin_of_isNear {early late : Sample} (before : early.timestamp < late.timestamp)
    (near : IsNear window early.timestamp late.timestamp) :
    samplesWithin (windowMillis window) [early] [late] = [early] ∧
      samplesWithin (windowMillis window) [late] [early] = [early] := by
  have dropped : thinAfter (windowMillis window) early.timestamp [late] = [] :=
    thinAfter_cons_of_isNear near
  have inOrder : interleave [early] [late] = [early, late] := by
    simp [interleave, Int64.lt_asymm before]
  have turned : interleave [late] [early] = [early, late] := by
    simp [interleave, before]
  rw [samplesWithin, samplesWithin, inOrder, turned, thin, dropped]
  exact ⟨rfl, rfl⟩

/-- A single sample is kept once when it is merged with itself. -/
theorem samplesWithin_self (sample : Sample) :
    samplesWithin (windowMillis window) [sample] [sample] = [sample] := by
  have near : IsNear window sample.timestamp sample.timestamp := isNear_of_le (Int64.le_refl _)
  have dropped : thinAfter (windowMillis window) sample.timestamp [sample] = [] :=
    thinAfter_cons_of_isNear near
  have walk : interleave [sample] [sample] = [sample, sample] := by
    simp [interleave, Int64.lt_irrefl]
  rw [samplesWithin, walk, thin, dropped]

theorem isThinned_thinAfter (last : Sample) (samples : List Sample)
    (inOrder : InOrder (last :: samples)) :
    IsThinned window (fun time => time ∈ (last :: samples).map Sample.timestamp)
      ((last :: thinAfter (windowMillis window) last.timestamp samples).map Sample.timestamp) := by
  induction samples generalizing last with
  | nil =>
      exact ⟨fun _ isKept => isKept, List.pairwise_singleton _ _, fun _ isPresent => .inl isPresent⟩
  | cons sample rest inductionHypothesis =>
      rcases List.pairwise_cons.mp inOrder with ⟨fromLast, restInOrder⟩
      have toSample := fromLast sample List.mem_cons_self
      by_cases near : IsNear window last.timestamp sample.timestamp
      · have without : InOrder (last :: rest) := inOrder.sublist (by simp)
        have thinned := inductionHypothesis last without
        rw [thinAfter_cons_of_isNear near]
        refine ⟨?_, thinned.apart, ?_⟩
        · intro time isKept
          have isPresent := thinned.present_of_mem time isKept
          simp only [List.map_cons, List.mem_cons] at isPresent ⊢
          tauto
        · intro time isPresent
          simp only [List.map_cons, List.mem_cons] at isPresent
          rcases isPresent with rfl | rfl | later
          · exact thinned.covered _ (by simp)
          · by_cases same : last.timestamp = sample.timestamp
            · exact .inl (by simp [same])
            · exact .inr ⟨last.timestamp, by simp, Int64.lt_of_le_of_ne toSample same, near⟩
          · exact thinned.covered _ (by simp [later])
      · have thinned := inductionHypothesis sample restInOrder
        rw [thinAfter_cons_of_not_isNear near]
        refine ⟨?_, ?_, ?_⟩
        · intro time isKept
          rcases List.mem_cons.mp isKept with rfl | later
          · exact List.mem_cons_self
          · exact List.mem_cons_of_mem _ (thinned.present_of_mem time later)
        · refine List.pairwise_cons.mpr ⟨?_, thinned.apart⟩
          intro time isKept nearTime
          have isPresent := thinned.present_of_mem time isKept
          rcases List.mem_map.mp isPresent with ⟨kept, isSample, rfl⟩
          have fromSample : sample.timestamp ≤ kept.timestamp := by
            rcases List.mem_cons.mp isSample with rfl | inRest
            · exact Int64.le_refl _
            · exact (List.pairwise_cons.mp restInOrder).1 kept inRest
          exact near (nearTime.between (Int64.le_refl _) fromSample)
        · intro time isPresent
          rcases List.mem_cons.mp isPresent with rfl | later
          · exact .inl List.mem_cons_self
          · rcases thinned.covered time later with isKept | ⟨before, isKept, earlier⟩
            · exact .inl (List.mem_cons_of_mem _ isKept)
            · exact .inr ⟨before, List.mem_cons_of_mem _ isKept, earlier⟩

/-- Merging two series keeps what is to be kept of the timestamps of both. -/
theorem isThinned_samplesWithin {first second : List Sample} (firstInOrder : InOrder first)
    (secondInOrder : InOrder second) :
    IsThinned window
      (fun time => time ∈ first.map Sample.timestamp ∨ time ∈ second.map Sample.timestamp)
      ((samplesWithin (windowMillis window) first second).map Sample.timestamp) := by
  have walked : IsThinned window
      (fun time => time ∈ (interleave first second).map Sample.timestamp)
      ((samplesWithin (windowMillis window) first second).map Sample.timestamp) := by
    have inOrder := interleave_inOrder firstInOrder secondInOrder
    unfold samplesWithin
    generalize interleave first second = walk at inOrder ⊢
    cases walk with
    | nil => exact ⟨fun _ isKept => isKept, List.Pairwise.nil, fun _ isPresent => .inl isPresent⟩
    | cons sample rest => exact isThinned_thinAfter sample rest inOrder
  apply walked.congr
  intro time
  rw [((interleave_perm first second).map Sample.timestamp).mem_iff, List.map_append,
    List.mem_append]

/-- Every sample of merged series is within the window of a kept one that is not later. -/
theorem exists_kept_near {first second : List Sample} (firstInOrder : InOrder first)
    (secondInOrder : InOrder second) {sample : Sample} (isSample : sample ∈ first ++ second) :
    exists kept, kept ∈ samplesWithin (windowMillis window) first second ∧
      kept.timestamp ≤ sample.timestamp ∧ IsNear window kept.timestamp sample.timestamp := by
  have present : sample.timestamp ∈ first.map Sample.timestamp ∨
      sample.timestamp ∈ second.map Sample.timestamp :=
    (List.mem_append.mp isSample).imp List.mem_map_of_mem List.mem_map_of_mem
  rcases (isThinned_samplesWithin firstInOrder secondInOrder).covered sample.timestamp present with
    isKept | ⟨time, isKept, earlier, near⟩
  · rcases List.mem_map.mp isKept with ⟨kept, inMerged, sameTime⟩
    have notEarlier : sample.timestamp ≤ kept.timestamp := Int64.le_of_eq sameTime.symm
    exact ⟨kept, inMerged, Int64.le_of_eq sameTime, isNear_of_le notEarlier⟩
  · rcases List.mem_map.mp isKept with ⟨kept, inMerged, rfl⟩
    exact ⟨kept, inMerged, Int64.le_of_lt earlier, near⟩

/-! ## What the running merge of many series keeps -/

/-- Whether no three different ones among some series are entangled: a timestamp of one near the next
one of another, that near the next one of a third, and the first and the last of them apart. -/
def IsUntangled (window : Duration) (streams : List (List Sample)) : Prop :=
  forall first, first ∈ streams -> forall second, second ∈ streams -> forall third, third ∈ streams ->
    forall early, early ∈ first.map Sample.timestamp ->
    forall middle, middle ∈ second.map Sample.timestamp ->
    forall late, late ∈ third.map Sample.timestamp ->
      early < middle -> middle < late -> IsNear window early middle -> IsNear window middle late ->
        ¬ IsNear window early late -> first = third

/-- The timestamps of some series. -/
def HasTimestamp (streams : List (List Sample)) (time : Timestamp64) : Prop :=
  exists stream, stream ∈ streams ∧ time ∈ stream.map Sample.timestamp

/-- One more series merged into the kept timestamps of untangled ones: what the running merge has
forgotten is covered all the same. -/
theorem IsThinned.append {streams : List (List Sample)} {last : List Sample}
    (untangled : IsUntangled window (streams ++ [last])) {kept : List Timestamp64}
    (thinned : IsThinned window (HasTimestamp streams) kept) {again : List Timestamp64}
    (merged : IsThinned window (fun time => time ∈ kept ∨ time ∈ last.map Sample.timestamp) again) :
    IsThinned window (HasTimestamp (streams ++ [last])) again where
  present_of_mem := by
    intro time isKept
    rcases merged.present_of_mem time isKept with before | isNew
    · rcases thinned.present_of_mem time before with ⟨stream, isStream, inStream⟩
      exact ⟨stream, List.mem_append_left _ isStream, inStream⟩
    · exact ⟨last, by simp, isNew⟩
  apart := merged.apart
  covered := by
    rintro time ⟨third, isStream, inThird⟩
    rcases List.mem_append.mp isStream with isOld | isLast
    · rcases thinned.covered time ⟨third, isOld, inThird⟩ with
        isKept | ⟨middle, middleKept, middleBefore, middleNear⟩
      · exact merged.covered time (.inl isKept)
      · rcases merged.covered middle (.inl middleKept) with
          middleStays | ⟨early, earlyStays, earlyBefore, earlyNear⟩
        · exact .inr ⟨middle, middleStays, middleBefore, middleNear⟩
        · -- The timestamp that dropped this one has been dropped itself.
          have before : early < time := Int64.lt_trans earlyBefore middleBefore
          by_cases near : IsNear window early time
          · exact .inr ⟨early, earlyStays, before, near⟩
          · have earlyNew : early ∈ last.map Sample.timestamp := by
              rcases merged.present_of_mem early earlyStays with earlyKept | isNew
              · exact absurd earlyNear (thinned.not_isNear earlyKept middleKept earlyBefore)
              · exact isNew
            rcases thinned.present_of_mem middle middleKept with ⟨second, isSecond, inSecond⟩
            have same : last = third := untangled last (by simp) second
              (List.mem_append_left _ isSecond) third isStream early earlyNew middle inSecond time
              inThird earlyBefore middleBefore earlyNear middleNear near
            exact merged.covered time (.inr (same ▸ inThird))
    · rw [List.mem_singleton.mp isLast] at inThird
      exact merged.covered time (.inr inThird)

theorem IsThinned.inOrder {present : Timestamp64 -> Prop} {samples : List Sample}
    (thinned : IsThinned window present (samples.map Sample.timestamp)) : InOrder samples :=
  (List.pairwise_map.mp thinned.ascending).imp Int64.le_of_lt

/-- The running merge of at least two untangled series keeps what is to be kept of the timestamps of
all. -/
theorem isThinned_foldl (first second : List Sample) (rest : List (List Sample))
    (inOrder : forall stream, stream ∈ first :: second :: rest -> InOrder stream)
    (untangled : IsUntangled window (first :: second :: rest)) :
    IsThinned window (HasTimestamp (first :: second :: rest))
      (((second :: rest).foldl (samplesWithin (windowMillis window)) first).map
        Sample.timestamp) := by
  induction rest using List.reverseRecOn with
  | nil =>
      apply (isThinned_samplesWithin (inOrder first (by simp)) (inOrder second (by simp))).congr
      intro time
      simp [HasTimestamp]
  | append_singleton rest last inductionHypothesis =>
      have fewer : forall stream, stream ∈ first :: second :: rest ->
          stream ∈ first :: second :: (rest ++ [last]) := by
        intro stream isStream
        simp only [List.mem_cons, List.mem_append] at isStream ⊢
        tauto
      have thinned := inductionHypothesis (fun stream isStream => inOrder stream (fewer stream isStream))
        (fun one isOne other isOther third isThird =>
          untangled one (fewer one isOne) other (fewer other isOther) third (fewer third isThird))
      have merged : IsThinned window _ _ :=
        isThinned_samplesWithin thinned.inOrder (inOrder last (by simp))
      rw [← List.cons_append, List.foldl_concat]
      exact thinned.append untangled merged

end Merge
end QueryFederation
