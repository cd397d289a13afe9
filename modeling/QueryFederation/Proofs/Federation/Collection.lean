import QueryFederation.Proofs.Federation.Moments
import QueryFederation.Proofs.Federation.Verdict

/-!
# Collections that nothing interrupts

Whoever collects the outcomes of a fan-out waits for the first one, then for the second one, and so on.
What has been merged after some of them is therefore the merging of exactly these, whenever they came,
and the collector is at the latest of their moments.  A collection that is not cancelled ends with the
verdict on the outcomes, after the delay of that verdict.
-/

namespace QueryFederation

open Verdict

variable {Answer : Type}

/-! ## One delivery more -/

namespace Progress

theorem takenAt_eq_or (progress : Progress Answer) (collector : Collector) (delivered : Moment) :
    progress.moment < delivered ∧ progress.takenAt collector delivered = collector.wakes delivered ∨
      delivered ≤ progress.moment ∧ progress.takenAt collector delivered = progress.moment := by
  unfold takenAt
  by_cases before : progress.moment.isBefore delivered = true
  · rw [if_pos before]
    exact Or.inl ⟨(Moment.isBefore_iff _ _).mp before, rfl⟩
  · rw [if_neg before]
    exact Or.inr ⟨(Moment.isBefore_eq_false_iff _ _).mp (Bool.not_eq_true _ ▸ before), rfl⟩

theorem wakes_millis (collector : Collector) (delivered : Moment) :
    (collector.wakes delivered).millis = delivered.millis := by
  cases collector <;> rfl

theorem le_wakes (collector : Collector) (delivered : Moment) :
    delivered ≤ collector.wakes delivered := by
  cases collector with
  | caller => exact Moment.le_settle delivered
  | unit => exact Moment.le_next delivered

/-- An outcome is not taken before it is delivered. -/
theorem le_takenAt (progress : Progress Answer) (collector : Collector) (delivered : Moment) :
    delivered ≤ progress.takenAt collector delivered := by
  rcases takenAt_eq_or progress collector delivered with ⟨_, taken⟩ | ⟨notAfter, taken⟩
  · rw [taken]
    exact le_wakes collector delivered
  · rwa [taken]

/-- A collector does not go back in time. -/
theorem moment_le_takenAt (progress : Progress Answer) (collector : Collector) (delivered : Moment) :
    progress.moment ≤ progress.takenAt collector delivered := by
  rcases takenAt_eq_or progress collector delivered with ⟨before, taken⟩ | ⟨_, taken⟩
  · rw [taken]
    exact le_trans (le_of_lt before) (le_wakes collector delivered)
  · rw [taken]

theorem takenAt_millis (progress : Progress Answer) (collector : Collector) (delivered : Moment) :
    (progress.takenAt collector delivered).millis = max progress.moment.millis delivered.millis := by
  rcases takenAt_eq_or progress collector delivered with ⟨before, taken⟩ | ⟨notAfter, taken⟩
  · rw [taken, wakes_millis, Nat.max_eq_right (Moment.millis_le_of_le (le_of_lt before))]
  · rw [taken, Nat.max_eq_left (Moment.millis_le_of_le notAfter)]

/-- The number of merges that have been tried when one more outcome has come.  An answer is merged if there
is one to merge it into. -/
def mergesAfter (progress : Progress Answer) : Except Fault Answer -> Nat
  | .error _ => progress.merges
  | .ok _ => if progress.merged.isSome then progress.merges + 1 else progress.merges

section InTime

variable {merge : Nat -> Answer -> Answer -> Except Fault Answer} {collector : Collector}
  {cancel : Option Moment} {progress : Progress Answer} {delivery : Delivery Answer}
  (inTime : cancelledBefore? cancel (progress.takenAt collector delivery.moment) = none)
include inTime

/-- A delivery that is taken extends what has been merged by its outcome, or ends the collection with the
fault of the merge. -/
theorem take_eq_extend :
    progress.take merge collector cancel delivery =
      match extend (merge progress.merges) progress.merged delivery.outcome with
      | .ok merged =>
          .ok ⟨progress.takenAt collector delivery.moment, merged,
            lastFaultAfter progress.lastFault delivery.outcome, progress.mergesAfter delivery.outcome⟩
      | .error fault =>
          .error ⟨progress.takenAt collector delivery.moment, .error fault,
            progress.mergesAfter delivery.outcome⟩ := by
  unfold take
  dsimp only
  rw [inTime]
  cases delivery.outcome with
  | error fault => rfl
  | ok answer =>
      dsimp only [takeAnswer, mergesAfter, extend]
      cases progress.merged with
      | none => rfl
      | some seed =>
          dsimp only
          cases merge progress.merges seed answer <;> rfl

theorem take_of_extend {merged : Option Answer}
    (extended : extend (merge progress.merges) progress.merged delivery.outcome = .ok merged) :
    progress.take merge collector cancel delivery =
      .ok ⟨progress.takenAt collector delivery.moment, merged,
        lastFaultAfter progress.lastFault delivery.outcome, progress.mergesAfter delivery.outcome⟩ := by
  rw [take_eq_extend inTime, extended]

theorem take_of_extend_error {fault : Fault}
    (failed : extend (merge progress.merges) progress.merged delivery.outcome = .error fault) :
    progress.take merge collector cancel delivery =
      .error ⟨progress.takenAt collector delivery.moment, .error fault,
        progress.mergesAfter delivery.outcome⟩ := by
  rw [take_eq_extend inTime, failed]

end InTime

/-- What a progress holds when some deliveries have been taken, by a collector that began at some
time. -/
structure Holds (merge : Answer -> Answer -> Except Fault Answer) (startMillis : Nat)
    (taken : List (Delivery Answer)) (progress : Progress Answer) : Prop where
  merged : merging merge (taken.map Delivery.outcome) = .ok progress.merged
  lastFault : progress.lastFault = (faults (taken.map Delivery.outcome)).getLast?
  millis : progress.moment.millis =
    max startMillis ((taken.map fun delivery => delivery.moment.millis).foldr max 0)

theorem Holds.start (merge : Answer -> Answer -> Except Fault Answer) (moment : Moment) :
    Holds merge moment.millis [] (start moment) where
  merged := rfl
  lastFault := rfl
  millis := (Nat.max_eq_left (Nat.zero_le _)).symm

theorem Holds.breaks_eq_false {merge : Answer -> Answer -> Except Fault Answer} {startMillis : Nat}
    {taken : List (Delivery Answer)} {progress : Progress Answer}
    (holds : Holds merge startMillis taken progress) :
    breaks merge (taken.map Delivery.outcome) = false :=
  (breaks_eq_false_iff merge _).mpr ⟨progress.merged, holds.merged⟩

theorem Holds.merging_concat {merge : Answer -> Answer -> Except Fault Answer} {startMillis : Nat}
    {taken : List (Delivery Answer)} {progress : Progress Answer}
    (holds : Holds merge startMillis taken progress) (delivery : Delivery Answer) :
    merging merge ((taken ++ [delivery]).map Delivery.outcome) =
      extend merge progress.merged delivery.outcome := by
  rw [List.map_append, List.map_singleton, Verdict.merging_concat, holds.merged]
  rfl

theorem Holds.takenAt_millis {merge : Answer -> Answer -> Except Fault Answer} {startMillis : Nat}
    {taken : List (Delivery Answer)} {progress : Progress Answer}
    (holds : Holds merge startMillis taken progress) (collector : Collector)
    (delivery : Delivery Answer) :
    (progress.takenAt collector delivery.moment).millis =
      max startMillis
        (((taken ++ [delivery]).map fun delivery => delivery.moment.millis).foldr max 0) := by
  rw [Progress.takenAt_millis, holds.millis, List.map_append, List.map_singleton, foldr_max_append,
    Nat.max_assoc]

/-- A delivery that is taken is held from then on. -/
theorem Holds.take_of_extend {merge : Answer -> Answer -> Except Fault Answer} {startMillis : Nat}
    {taken : List (Delivery Answer)} {progress : Progress Answer}
    (holds : Holds merge startMillis taken progress) {collector : Collector}
    {cancel : Option Moment} {delivery : Delivery Answer} {merged : Option Answer}
    (inTime : cancelledBefore? cancel (progress.takenAt collector delivery.moment) = none)
    (extended : extend merge progress.merged delivery.outcome = .ok merged) :
    exists next, progress.take (fun _ => merge) collector cancel delivery = .ok next ∧
      Holds merge startMillis (taken ++ [delivery]) next := by
  refine ⟨_, Progress.take_of_extend inTime extended, ?_⟩
  exact
    { merged := (holds.merging_concat delivery).trans extended
      lastFault := by
        rw [List.map_append, List.map_singleton, faults_concat_getLast?, holds.lastFault]
      millis := holds.takenAt_millis collector delivery }

end Progress

/-! ## Whole collections -/

/-- The end of a collection, from a point of it on. -/
def Progress.conclusion (merge : Nat -> Answer -> Answer -> Except Fault Answer) (empty : Answer)
    (collector : Collector) (cancel : Option Moment) (progress : Progress Answer)
    (deliveries : List (Delivery Answer)) : Conclusion Answer :=
  match progress.takeAll merge collector cancel deliveries with
  | .ok final => final.conclude empty
  | .error conclusion => conclusion

namespace Progress

theorem conclusion_nil (merge : Nat -> Answer -> Answer -> Except Fault Answer) (empty : Answer)
    (collector : Collector) (cancel : Option Moment) (progress : Progress Answer) :
    progress.conclusion merge empty collector cancel [] = progress.conclude empty := rfl

theorem conclusion_cons (merge : Nat -> Answer -> Answer -> Except Fault Answer) (empty : Answer)
    (collector : Collector) (cancel : Option Moment) (progress : Progress Answer)
    (delivery : Delivery Answer) (rest : List (Delivery Answer)) :
    progress.conclusion merge empty collector cancel (delivery :: rest) =
      match progress.take merge collector cancel delivery with
      | .ok next => next.conclusion merge empty collector cancel rest
      | .error conclusion => conclusion := by
  unfold conclusion
  rw [takeAll]
  cases progress.take merge collector cancel delivery <;> rfl

/-- From any point of a collection on, its end is the verdict on all outcomes. -/
theorem Holds.conclusion {merge : Answer -> Answer -> Except Fault Answer} (empty : Answer)
    (collector : Collector) {startMillis : Nat} (rest : List (Delivery Answer))
    {taken : List (Delivery Answer)} {progress : Progress Answer}
    (holds : Holds merge startMillis taken progress) :
    (progress.conclusion (fun _ => merge) empty collector none rest).outcome =
        ofOutcomes merge empty ((taken ++ rest).map Delivery.outcome) ∧
      (progress.conclusion (fun _ => merge) empty collector none rest).moment.millis =
        max startMillis
          (delayMillis merge ((taken ++ rest).map Delivery.outcome)
            ((taken ++ rest).map fun delivery => delivery.moment.millis)) := by
  induction rest generalizing taken progress with
  | nil =>
      rw [conclusion_nil, List.append_nil]
      constructor
      · change progress.outcome empty = _
        unfold Progress.outcome ofOutcomes
        rw [holds.merged, holds.lastFault]
        cases progress.merged with
        | some merged => rfl
        | none => cases (faults (taken.map Delivery.outcome)).getLast? <;> rfl
      · rw [delayMillis_of_whole merge (by simp only [List.length_map]) holds.breaks_eq_false]
        exact holds.millis
  | cons delivery rest inductionHypothesis =>
      have inTime : cancelledBefore? none (progress.takenAt collector delivery.moment) = none := rfl
      rw [List.append_cons, conclusion_cons]
      cases extended : extend merge progress.merged delivery.outcome with
      | ok merged =>
          rcases holds.take_of_extend inTime extended with ⟨next, took, holdsNext⟩
          rw [took]
          exact inductionHypothesis holdsNext
      | error fault =>
          have concat := (holds.merging_concat delivery).trans extended
          have moment := holds.takenAt_millis collector delivery
          rw [take_of_extend_error inTime extended]
          constructor
          · rw [List.map_append, ofOutcomes_of_error merge empty
              (merging_append_of_error merge concat _)]
          · have broken : breaks merge ((taken ++ [delivery]).map Delivery.outcome) = true :=
              (breaks_eq_true_iff merge _).mpr ⟨fault, concat⟩
            rw [moment, ← List.append_cons]
            simp only [List.map_append, List.map_cons, List.map_nil] at broken ⊢
            rw [delayMillis_of_breaks merge (by simp only [List.length_map]) holds.breaks_eq_false
              broken, foldr_max_append]

end Progress

/-- A collection that is not cancelled ends with the verdict on the outcomes that are delivered, whatever
the moments at which they are. -/
theorem Delivery.collect_uncancelled (merge : Answer -> Answer -> Except Fault Answer) (empty : Answer)
    (collector : Collector) (start : Moment) (deliveries : List (Delivery Answer)) :
    (Delivery.collect (fun _ => merge) empty collector none start deliveries).outcome =
        ofOutcomes merge empty (deliveries.map Delivery.outcome) ∧
      (Delivery.collect (fun _ => merge) empty collector none start deliveries).moment.millis =
        max start.millis
          (delayMillis merge (deliveries.map Delivery.outcome)
            (deliveries.map fun delivery => delivery.moment.millis)) :=
  (Progress.Holds.start merge start).conclusion empty collector deliveries

end QueryFederation
