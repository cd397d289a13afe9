import QueryFederation.Proofs.Merge.Greedy

/-!
# How far a running merge drifts

A sample that is dropped is represented by the kept one before it, which lies within the window.  When
further replicas are merged, that one may be dropped in its turn, and so the sample that stands for a
measurement moves back by at most one window with every replica.  Nothing is ever represented by a later
sample, so the running merge begins with the earliest sample of all.

The bound is reached by replicas of one sample each that descend by one window at a time: every merge drops
what was kept so far, and in the end the lowest step stands for the highest one.
-/

namespace QueryFederation
namespace Merge

variable {window : Duration}

/-! ## What stands for the samples of many lists -/

/-- Whether a list stands for the samples of some lists: it is in order, its samples are theirs, and each
of theirs lies at most some milliseconds after one of it that is not later. -/
structure Represents (drift : Nat) (lists : List (List Sample)) (kept : List Sample) : Prop where
  inOrder : InOrder kept
  mem_of_mem : forall sample, sample ∈ kept -> sample ∈ lists.flatten
  covered : forall sample, sample ∈ lists.flatten ->
    exists earlier, earlier ∈ kept ∧ 0 ≤ sample.timestamp.toInt - earlier.timestamp.toInt ∧
      sample.timestamp.toInt - earlier.timestamp.toInt ≤ drift

theorem samples_inOrder (window : Duration) (first second : List Sample) :
    InOrder (samples window first second) := by
  have apart := List.isChain_iff_pairwise.mp (samplesWithin_isChain window first second)
  exact (List.pairwise_map.mp apart).imp fun follows => Int64.le_of_lt follows.lt

namespace Represents

variable {drift : Nat} {lists : List (List Sample)} {kept : List Sample}

theorem single {samples : List Sample} (inOrder : InOrder samples) :
    Represents 0 [samples] samples where
  inOrder := inOrder
  mem_of_mem := fun sample isKept => by rwa [List.flatten_singleton]
  covered := by
    intro sample isSample
    rw [List.flatten_singleton] at isSample
    exact ⟨sample, isSample, by omega, by omega⟩

/-- A further list moves what stands for a sample by at most one window. -/
theorem merge (represents : Represents drift lists kept)
    (inReach : window.millis < Nat.pow 2 63 - 1) {last : List Sample} (lastInOrder : InOrder last) :
    Represents (drift + window.millis) (lists ++ [last]) (samples window kept last) where
  inOrder := samples_inOrder window kept last
  mem_of_mem := by
    intro sample isKept
    rw [List.flatten_append, List.flatten_singleton, List.mem_append]
    exact (mem_of_mem_samplesWithin isKept).imp (represents.mem_of_mem sample) id
  covered := by
    intro sample isSample
    have within {other : Sample} (isOther : other ∈ kept ++ last) :=
      exists_kept_within inReach represents.inOrder lastInOrder isOther
    rw [List.flatten_append, List.flatten_singleton, List.mem_append] at isSample
    rcases isSample with isOld | isNew
    · -- What stood for the sample may have been dropped, and then something stands for it.
      rcases represents.covered sample isOld with ⟨middle, wasKept, notLater, near⟩
      rcases within (List.mem_append_left last wasKept) with
        ⟨earlier, isKept, stillNotLater, stillNear⟩
      exact ⟨earlier, isKept, by omega, by omega⟩
    · rcases within (List.mem_append_right kept isNew) with ⟨earlier, isKept, notLater, near⟩
      exact ⟨earlier, isKept, notLater, by omega⟩

/-- What stands for samples begins with the earliest of them. -/
theorem head?_timestamp (represents : Represents drift lists kept) :
    kept.head?.map Sample.timestamp = (lists.flatten.map Sample.timestamp).min? := by
  symm
  cases isKept : kept with
  | nil =>
      have none : lists.flatten = [] := by
        apply List.eq_nil_iff_forall_not_mem.mpr
        intro sample isSample
        rcases represents.covered sample isSample with ⟨earlier, earlierKept, _⟩
        rw [isKept] at earlierKept
        cases earlierKept
      rw [none]
      rfl
  | cons first rest =>
      have inOrder := isKept ▸ represents.inOrder
      have isFirst : first ∈ kept := isKept ▸ List.mem_cons_self
      refine List.min?_eq_some_iff.mpr
        ⟨List.mem_map_of_mem (represents.mem_of_mem first isFirst), ?_⟩
      intro time isTime
      rcases List.mem_map.mp isTime with ⟨sample, isSample, rfl⟩
      rcases represents.covered sample isSample with ⟨earlier, earlierKept, notLater, _⟩
      have fromFirst : first.timestamp ≤ earlier.timestamp := by
        rw [isKept] at earlierKept
        rcases List.mem_cons.mp earlierKept with rfl | isLater
        · exact Int64.le_refl _
        · exact (List.pairwise_cons.mp inOrder).1 earlier isLater
      rw [Int64.le_iff_toInt_le] at fromFirst ⊢
      omega

end Represents

/-- The running merge of lists in order drifts by one window with every list after the first one. -/
theorem represents_foldl (inReach : window.millis < Nat.pow 2 63 - 1) (first : List Sample)
    (rest : List (List Sample)) (inOrder : forall list, list ∈ first :: rest -> InOrder list) :
    Represents (rest.length * window.millis) (first :: rest) (rest.foldl (samples window) first) := by
  induction rest using List.reverseRecOn with
  | nil =>
      rw [List.length_nil, Nat.zero_mul]
      exact .single (inOrder first List.mem_cons_self)
  | append_singleton rest last inductionHypothesis =>
      rw [← List.cons_append, List.forall_mem_append] at inOrder
      have merged := (inductionHypothesis inOrder.1).merge inReach
        (inOrder.2 last (List.mem_singleton.mpr rfl))
      rw [List.foldl_concat, List.length_append, List.length_singleton, Nat.succ_mul]
      exact merged

/-! ## Replicas that reach the bound -/

/-- A sample some windows after zero. -/
def step (window : Duration) (height : Nat) : Sample :=
  ⟨Int64.ofNat (height * window.millis), 1⟩

/-- Replicas of one sample each that descend to zero by one window at a time. -/
def stairs (window : Duration) : Nat -> List (List Sample)
  | 0 => []
  | height + 1 => [step window height] :: stairs window height

theorem stairs_length (window : Duration) (height : Nat) : (stairs window height).length = height := by
  induction height with
  | zero => rfl
  | succ height inductionHypothesis => rw [stairs, List.length_cons, inductionHypothesis]

theorem stairs_inOrder {height : Nat} {replica : List Sample}
    (isReplica : replica ∈ stairs window height) : InOrder replica := by
  induction height with
  | zero => cases isReplica
  | succ height inductionHypothesis =>
      rcases List.mem_cons.mp isReplica with rfl | isLower
      · exact List.pairwise_singleton _ _
      · exact inductionHypothesis isLower

theorem step_toInt {height : Nat} (inRange : height * window.millis < Nat.pow 2 63) :
    (step window height).timestamp.toInt = (height * window.millis : Nat) := by
  have bounded : height * window.millis < 2 ^ 63 := inRange
  rw [step, Int64.toInt_ofNat_of_lt bounded]

/-- A sample drops the one above it. -/
theorem samples_step {height : Nat} (inRange : (height + 1) * window.millis < Nat.pow 2 63) :
    samples window [step window (height + 1)] [step window height] = [step window height] := by
  have above := step_toInt inRange
  rw [Nat.succ_mul] at inRange above
  have lower : height * window.millis < Nat.pow 2 63 := by omega
  have below := step_toInt lower
  rcases Nat.eq_zero_or_pos window.millis with none | some
  · -- Without a window the steps are one sample, which drops itself.
    have same : step window (height + 1) = step window height := by
      rw [step, step, none, Nat.mul_zero, Nat.mul_zero]
    rw [same]
    exact samplesWithin_self _
  · have before : (step window height).timestamp < (step window (height + 1)).timestamp := by
      rw [Int64.lt_iff_toInt_lt]
      omega
    have near : IsNear window (step window height).timestamp (step window (height + 1)).timestamp := by
      unfold IsNear distanceAfter windowMillis greatestDistance
      rw [Nat.pow_eq] at inRange ⊢
      omega
    exact (samplesWithin_of_isNear before near).2

theorem stairs_foldl {height : Nat} (inRange : height * window.millis < Nat.pow 2 63) :
    (stairs window height).foldl (samples window) [step window height] = [step window 0] := by
  induction height with
  | zero => rfl
  | succ height inductionHypothesis =>
      have below : height * window.millis < Nat.pow 2 63 := by
        rw [Nat.succ_mul] at inRange
        omega
      rw [stairs, List.foldl_cons, samples_step inRange, inductionHypothesis below]

/-! ## The bound -/

/-- When lists in order are merged one after another, the first one taken as it is, each of their samples
lies after a kept one, by at most as many windows as there are further lists, and the first kept sample
has the least timestamp of all.  Whatever the window and the number of further lists, as long as so many
windows are a distance between timestamps, there are lists for which some sample has no kept one nearer
than that.  Windows count in whole milliseconds. -/
theorem running_merge_drift (window : Duration) :
    (window.millis < Nat.pow 2 63 - 1 -> forall (first : List Sample) (rest : List (List Sample)),
      (forall list, list ∈ first :: rest -> InOrder list) ->
        (forall list, list ∈ first :: rest -> forall sample, sample ∈ list ->
          exists kept, kept ∈ rest.foldl (samples window) first ∧
            0 ≤ sample.timestamp.toInt - kept.timestamp.toInt ∧
            sample.timestamp.toInt - kept.timestamp.toInt ≤ (rest.length * window.millis : Nat)) ∧
        (rest.foldl (samples window) first).head?.map Sample.timestamp =
          ((first :: rest).flatten.map Sample.timestamp).min?) ∧
      forall further : Nat, further * window.millis < Nat.pow 2 63 ->
        exists (first : List Sample) (rest : List (List Sample)), rest.length = further ∧
          (forall list, list ∈ first :: rest -> InOrder list) ∧
          exists sample, sample ∈ (first :: rest).flatten ∧
            (exists kept, kept ∈ rest.foldl (samples window) first ∧
              (sample.timestamp.toInt - kept.timestamp.toInt).natAbs = further * window.millis) ∧
            forall kept, kept ∈ rest.foldl (samples window) first ->
              further * window.millis ≤ (sample.timestamp.toInt - kept.timestamp.toInt).natAbs := by
  constructor
  · intro inReach first rest inOrder
    have represents := represents_foldl inReach first rest inOrder
    refine ⟨?_, represents.head?_timestamp⟩
    intro list isList sample isSample
    exact represents.covered sample (List.mem_flatten_of_mem isList isSample)
  · intro further inRange
    have lowest : (step window 0).timestamp.toInt = 0 := by
      rw [step_toInt (by rw [Nat.zero_mul]; decide), Nat.zero_mul, Int.natCast_zero]
    have distance : ((step window further).timestamp.toInt - (step window 0).timestamp.toInt).natAbs =
        further * window.millis := by
      rw [step_toInt inRange, lowest, Int.sub_zero, Int.natAbs_natCast]
    refine ⟨[step window further], stairs window further, stairs_length window further, ?_,
      step window further, List.mem_cons_self, ?_⟩
    · intro replica isReplica
      have isStair : replica ∈ stairs window (further + 1) := isReplica
      exact stairs_inOrder isStair
    · rw [stairs_foldl inRange]
      refine ⟨⟨step window 0, List.mem_singleton.mpr rfl, distance⟩, ?_⟩
      intro kept isKept
      rw [List.mem_singleton.mp isKept, distance]

/-- Three replicas, of which the second one drops a sample of the first and the third one drops what was
kept for it; and four replicas under the widest window for which the bound can be reached. -/
theorem running_merge_drift_replicas :
    let window := Duration.ofSeconds 5
    let wide := Duration.ofMillis ((Nat.pow 2 63 - 1) / 3)
    let first : List Sample := [⟨9000, 1⟩, ⟨60000, 2⟩]
    let rest : List (List Sample) := [[⟨4500, 1⟩, ⟨60000, 3⟩], [⟨0, 1⟩, ⟨0, 2⟩]]
    window.millis < Nat.pow 2 63 - 1 ∧ (forall list, list ∈ first :: rest -> InOrder list) ∧
      (exists kept, kept ∈ rest.foldl (samples window) first ∧
        0 ≤ (9000 : Int) - kept.timestamp.toInt ∧ (9000 : Int) - kept.timestamp.toInt ≤ 10000) ∧
      (rest.foldl (samples window) first).head?.map Sample.timestamp = some 0 ∧
      3 * wide.millis < Nat.pow 2 63 ∧
      exists (first : List Sample) (rest : List (List Sample)), rest.length = 3 ∧
        exists sample, sample ∈ (first :: rest).flatten ∧
          forall kept, kept ∈ rest.foldl (samples wide) first ->
            Nat.pow 2 63 - 3 ≤ (sample.timestamp.toInt - kept.timestamp.toInt).natAbs := by
  intro window wide first rest
  have inReach : window.millis < Nat.pow 2 63 - 1 := by decide
  have inOrder : forall list, list ∈ first :: rest -> InOrder list := by
    unfold InOrder
    decide
  have inRange : 3 * wide.millis < Nat.pow 2 63 := by decide
  rcases (running_merge_drift window).1 inReach first rest inOrder with ⟨covered, least⟩
  rcases (running_merge_drift wide).2 3 inRange with ⟨top, lower, count, _, sample, isSample, _, far⟩
  have twoWindows : ((rest.length * window.millis : Nat) : Int) = 10000 := by decide
  rw [twoWindows] at covered
  refine ⟨inReach, inOrder, covered first List.mem_cons_self ⟨9000, 1⟩ List.mem_cons_self,
    least.trans (by decide), inRange, top, lower, count, sample, isSample, ?_⟩
  intro kept isKept
  exact le_trans (by decide) (far kept isKept)

end Merge
end QueryFederation
