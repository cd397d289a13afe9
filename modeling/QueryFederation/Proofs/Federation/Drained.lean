import QueryFederation.Proofs.Federation.Cancelled

/-!
# What a collector drains

A collector takes outcomes out of their mailboxes until it has all of them, a merge fails, or it is
cancelled.  What it has drained by then decides its answer, and every drained outcome was delivered
before the collection ended.

The second fact rests on a rhythm.  Whoever is woken in one round runs in the next one, so units deliver
in every other round and collectors run in the rounds between.  The rounds in which timers elapse and
calls begin belong to the collectors.  So no outcome is delivered in the very round in which a collector
that had been woken by another one looks into its mailbox.
-/

namespace QueryFederation

/-! ## Turns -/

namespace Moment

/-- Which of two turns the rounds of a millisecond fall to.  A call begins in the second round of the
first millisecond, and a timer elapses in the first round of a later one. -/
def turn (moment : Moment) (number : Nat) : Nat :=
  (number + if moment.millis = 0 then 0 else 1) % 2

/-- The rounds in which units deliver. -/
def IsDeliveryTurn (moment : Moment) : Prop :=
  exists number, moment.phase = .round number ∧ moment.turn number = 0

/-- The rounds in which collectors run. -/
def IsCollectionTurn (moment : Moment) : Prop :=
  exists number, moment.phase = .round number ∧ moment.turn number = 1

theorem IsDeliveryTurn.isRound {moment : Moment} (delivery : moment.IsDeliveryTurn) :
    moment.IsRound := by
  rcases delivery with ⟨number, phase, _⟩
  exact ⟨number, phase⟩

theorem turn_next (moment : Moment) (number : Nat) :
    moment.next.turn (number + 1) = 1 - moment.turn number := by
  unfold turn
  rw [next_millis]
  split <;> omega

theorem IsDeliveryTurn.next {moment : Moment} (delivery : moment.IsDeliveryTurn) :
    moment.next.IsCollectionTurn := by
  rcases delivery with ⟨number, phase, turn⟩
  refine ⟨number + 1, ?_, ?_⟩
  · rw [Moment.next, phase, Phase.next]
  · rw [turn_next, turn]

theorem IsCollectionTurn.next {moment : Moment} (collection : moment.IsCollectionTurn) :
    moment.next.IsDeliveryTurn := by
  rcases collection with ⟨number, phase, turn⟩
  refine ⟨number + 1, ?_, ?_⟩
  · rw [Moment.next, phase, Phase.next]
  · rw [turn_next, turn]

theorem IsDeliveryTurn.not_collection {moment : Moment} (delivery : moment.IsDeliveryTurn) :
    ¬ moment.IsCollectionTurn := by
  rintro ⟨number, phase, turn⟩
  rcases delivery with ⟨other, samePhase, otherTurn⟩
  cases phase.symm.trans samePhase
  rw [turn] at otherTurn
  cases otherTurn

theorem isCollectionTurn_callStart : callStart.IsCollectionTurn :=
  ⟨1, rfl, rfl⟩

theorem isCollectionTurn_ofTimer {millis : Nat} (later : millis ≠ 0) :
    (ofTimer millis).IsCollectionTurn := by
  refine ⟨0, rfl, ?_⟩
  unfold turn
  rw [if_neg (show ¬ (ofTimer millis).millis = 0 from later)]

/-- Whether a moment lies before a cancellation, if there is one. -/
def IsBeforeCancel (moment : Moment) (cancel : Option Moment) : Prop :=
  forall cancelled, cancel = some cancelled -> moment < cancelled

theorem IsBeforeCancel.of_le {first second : Moment} {cancel : Option Moment}
    (before : second.IsBeforeCancel cancel) (notAfter : first ≤ second) :
    first.IsBeforeCancel cancel :=
  fun cancelled isCancel => lt_of_le_of_lt notAfter (before cancelled isCancel)

end Moment

/-! ## Draining -/

namespace Progress

variable {Answer : Type} {merge : Nat -> Answer -> Answer -> Except Fault Answer} {empty : Answer}
  {collector : Collector} {cancel : Option Moment}

/-- The deliveries that are taken, from a point of a collection on. -/
def drained (merge : Nat -> Answer -> Answer -> Except Fault Answer) (collector : Collector)
    (cancel : Option Moment) : Progress Answer -> List (Delivery Answer) -> List (Delivery Answer)
  | _, [] => []
  | progress, delivery :: deliveries =>
      match cancelledBefore? cancel (progress.takenAt collector delivery.moment) with
      | some _ => []
      | none =>
          delivery ::
            match progress.take merge collector cancel delivery with
            | .ok next => next.drained merge collector cancel deliveries
            | .error _ => []

theorem drained_cons_of_cancelled {progress : Progress Answer} {delivery : Delivery Answer}
    {cancelled : Moment}
    (late : cancelledBefore? cancel (progress.takenAt collector delivery.moment) = some cancelled)
    (rest : List (Delivery Answer)) :
    progress.drained merge collector cancel (delivery :: rest) = [] := by
  rw [drained, late]

theorem drained_cons_of_inTime {progress : Progress Answer} {delivery : Delivery Answer}
    (inTime : cancelledBefore? cancel (progress.takenAt collector delivery.moment) = none)
    (rest : List (Delivery Answer)) :
    progress.drained merge collector cancel (delivery :: rest) =
      delivery ::
        match progress.take merge collector cancel delivery with
        | .ok next => next.drained merge collector cancel rest
        | .error _ => [] := by
  rw [drained, inTime]

/-- Drained is what lies first. -/
theorem drained_prefix (progress : Progress Answer) (deliveries : List (Delivery Answer)) :
    progress.drained merge collector cancel deliveries <+: deliveries := by
  induction deliveries generalizing progress with
  | nil => exact List.prefix_rfl
  | cons delivery rest inductionHypothesis =>
      cases taking merge collector cancel progress delivery with
      | cut late took =>
          rw [drained_cons_of_cancelled late]
          exact List.nil_prefix
      | ends inTime took moment =>
          rw [drained_cons_of_inTime inTime, took]
          exact (List.prefix_cons_inj delivery).mpr List.nil_prefix
      | goesOn inTime took moment =>
          rw [drained_cons_of_inTime inTime, took]
          exact (List.prefix_cons_inj delivery).mpr (inductionHypothesis _)

/-- A collector wakes after the delivery that wakes it, and not in the turn of another one. -/
theorem wakes_of_deliveryTurn (collector : Collector) {delivered : Moment}
    (delivery : delivered.IsDeliveryTurn) :
    delivered < collector.wakes delivered ∧ ¬ (collector.wakes delivered).IsDeliveryTurn := by
  cases collector with
  | caller =>
      refine ⟨delivery.isRound.lt_settle, ?_⟩
      rintro ⟨number, phase, _⟩
      cases phase
  | unit => exact ⟨delivery.isRound.lt_next, fun again => again.not_collection delivery.next⟩

/-- When an outcome is taken, it is not a turn for deliveries. -/
theorem takenAt_not_deliveryTurn {progress : Progress Answer} {delivery : Delivery Answer}
    (turn : delivery.moment.IsBeforeCancel cancel -> delivery.moment.IsDeliveryTurn)
    (own : progress.moment.IsBeforeCancel cancel -> ¬ progress.moment.IsDeliveryTurn)
    (before : (progress.takenAt collector delivery.moment).IsBeforeCancel cancel) :
    ¬ (progress.takenAt collector delivery.moment).IsDeliveryTurn := by
  have notAfter := le_takenAt progress collector delivery.moment
  rcases takenAt_eq_or progress collector delivery.moment with ⟨_, taken⟩ | ⟨_, taken⟩
  · rw [taken]
    exact (wakes_of_deliveryTurn collector (turn (before.of_le notAfter))).2
  · rw [taken] at before ⊢
    exact own before

/-- An outcome is taken after the moment of its delivery. -/
theorem lt_takenAt {progress : Progress Answer} {delivery : Delivery Answer}
    (turn : delivery.moment.IsDeliveryTurn)
    (own : progress.moment.IsBeforeCancel cancel -> ¬ progress.moment.IsDeliveryTurn)
    (before : delivery.moment.IsBeforeCancel cancel) :
    delivery.moment < progress.takenAt collector delivery.moment := by
  rcases takenAt_eq_or progress collector delivery.moment with ⟨_, taken⟩ | ⟨notAfter, taken⟩
  · rw [taken]
    exact (wakes_of_deliveryTurn collector turn).1
  · rw [taken]
    refine lt_of_le_of_ne notAfter ?_
    intro same
    rw [same] at turn before
    exact own before turn

/-- What is drained before a cancellation was delivered before the end of the collection. -/
theorem lt_conclusion_of_drained {deliveries : List (Delivery Answer)}
    (turns : forall delivery, delivery ∈ deliveries ->
      delivery.moment.IsBeforeCancel cancel -> delivery.moment.IsDeliveryTurn)
    {progress : Progress Answer}
    (own : progress.moment.IsBeforeCancel cancel -> ¬ progress.moment.IsDeliveryTurn)
    {delivery : Delivery Answer}
    (isDrained : delivery ∈ progress.drained merge collector cancel deliveries)
    (before : delivery.moment.IsBeforeCancel cancel) :
    delivery.moment < (progress.conclusion merge empty collector cancel deliveries).moment := by
  induction deliveries generalizing progress with
  | nil => cases isDrained
  | cons first rest inductionHypothesis =>
      cases taking merge collector cancel progress first with
      | cut late took =>
          rw [drained_cons_of_cancelled late] at isDrained
          cases isDrained
      | ends inTime took moment =>
          rw [drained_cons_of_inTime inTime, took] at isDrained
          cases List.mem_singleton.mp isDrained
          have turn := turns delivery List.mem_cons_self before
          exact lt_of_lt_of_le (lt_takenAt turn own before) (takenAt_le_conclusion inTime rest)
      | goesOn inTime took moment =>
          rw [drained_cons_of_inTime inTime, took] at isDrained
          rcases List.mem_cons.mp isDrained with rfl | later
          · have turn := turns delivery List.mem_cons_self before
            exact lt_of_lt_of_le (lt_takenAt turn own before) (takenAt_le_conclusion inTime rest)
          · rw [conclusion_cons, took]
            refine inductionHypothesis (fun other isOther => turns other
              (List.mem_cons_of_mem _ isOther)) ?_ later
            rw [moment]
            exact takenAt_not_deliveryTurn (turns first List.mem_cons_self) own

/-- A caller drains nothing that is delivered at the moment of its cancellation or later. -/
theorem isBeforeCancel_of_drained {cancelled : Moment} (isRound : cancelled.IsRound)
    {deliveries : List (Delivery Answer)} {progress : Progress Answer}
    (apart : progress.moment ≠ cancelled) {delivery : Delivery Answer}
    (isDrained : delivery ∈ progress.drained merge .caller (some cancelled) deliveries) :
    delivery.moment < cancelled := by
  induction deliveries generalizing progress with
  | nil => cases isDrained
  | cons first rest inductionHypothesis =>
      have takenApart := caller_takenAt_ne isRound apart first.moment
      have early (inTime : cancelledBefore? (some cancelled)
          (progress.takenAt .caller first.moment) = none) : first.moment < cancelled :=
        lt_of_le_of_lt (le_takenAt progress .caller first.moment)
          (lt_of_le_of_ne (cancelledBefore?_some_eq_none_iff.mp inTime) takenApart)
      cases taking merge .caller (some cancelled) progress first with
      | cut late took =>
          rw [drained_cons_of_cancelled late] at isDrained
          cases isDrained
      | ends inTime took moment =>
          rw [drained_cons_of_inTime inTime, took] at isDrained
          cases List.mem_singleton.mp isDrained
          exact early inTime
      | goesOn inTime took moment =>
          rw [drained_cons_of_inTime inTime, took] at isDrained
          rcases List.mem_cons.mp isDrained with rfl | later
          · exact early inTime
          · exact inductionHypothesis (moment ▸ takenApart) later

/-- The answer of a collection as its drained outcomes decide it. -/
def verdictOf (merge : Answer -> Answer -> Except Fault Answer) (empty : Answer)
    (drained : List (Except Fault Answer)) (count : Nat) : Except Fault Answer :=
  match Verdict.merging merge drained with
  | .error fault => .error fault
  | .ok _ =>
      if drained.length = count then Verdict.ofOutcomes merge empty drained else .error .cancelled

/-- A collection answers what its drained outcomes decide. -/
theorem Holds.conclusion_of_drained {merge : Answer -> Answer -> Except Fault Answer}
    (empty : Answer) (collector : Collector) (cancel : Option Moment) {startMillis : Nat}
    {taken : List (Delivery Answer)} {progress : Progress Answer}
    (holds : Holds merge startMillis taken progress) (rest : List (Delivery Answer)) :
    (progress.conclusion (fun _ => merge) empty collector cancel rest).outcome =
      verdictOf merge empty
        ((taken ++ progress.drained (fun _ => merge) collector cancel rest).map Delivery.outcome)
        (taken.length + rest.length) := by
  induction rest generalizing taken progress with
  | nil =>
      have verdict := (holds.conclusion empty collector []).1
      rw [drained, List.append_nil, verdictOf, holds.merged]
      rw [List.append_nil] at verdict
      dsimp only
      rw [if_pos (by rw [List.length_map]; rfl)]
      exact verdict
  | cons delivery rest inductionHypothesis =>
      rw [conclusion_cons]
      cases late : cancelledBefore? cancel (progress.takenAt collector delivery.moment) with
      | some cancelled =>
          rw [drained_cons_of_cancelled late, List.append_nil, take_of_cancelled late, verdictOf,
            holds.merged]
          dsimp only
          rw [if_neg (by rw [List.length_map, List.length_cons]; omega)]
          rfl
      | none =>
          rw [drained_cons_of_inTime late]
          cases extended : Verdict.extend merge progress.merged delivery.outcome with
          | ok merged =>
              rcases holds.take_of_extend late extended with ⟨next, took, holdsNext⟩
              rw [took]
              dsimp only
              rw [inductionHypothesis holdsNext, ← List.append_cons, List.length_append,
                List.length_cons, List.length_cons, List.length_nil, Nat.add_assoc, Nat.add_comm 1]
          | error fault =>
              rw [take_of_extend_error late extended]
              dsimp only
              rw [verdictOf, (holds.merging_concat delivery).trans extended]

end Progress

/-! ## Backends keep the turns -/

/-- A unit that collects ends in a turn of collectors, if it is not cancelled before. -/
theorem Progress.conclusion_collectionTurn {Answer : Type}
    {merge : Nat -> Answer -> Answer -> Except Fault Answer} {empty : Answer}
    {cancel : Option Moment} {deliveries : List (Delivery Answer)}
    (turns : forall delivery, delivery ∈ deliveries ->
      delivery.moment.IsBeforeCancel cancel -> delivery.moment.IsDeliveryTurn)
    {progress : Progress Answer}
    (own : progress.moment.IsBeforeCancel cancel -> progress.moment.IsCollectionTurn)
    (before : (progress.conclusion merge empty .unit cancel deliveries).moment.IsBeforeCancel
      cancel) :
    (progress.conclusion merge empty .unit cancel deliveries).moment.IsCollectionTurn := by
  induction deliveries generalizing progress with
  | nil => exact own before
  | cons first rest inductionHypothesis =>
      have taken (inTime : (progress.takenAt .unit first.moment).IsBeforeCancel cancel) :
          (progress.takenAt .unit first.moment).IsCollectionTurn := by
        have notAfter := le_takenAt progress .unit first.moment
        rcases takenAt_eq_or progress .unit first.moment with ⟨_, woken⟩ | ⟨_, there⟩
        · rw [woken]
          exact (turns first List.mem_cons_self (inTime.of_le notAfter)).next
        · rw [there] at inTime ⊢
          exact own inTime
      rw [conclusion_cons] at before ⊢
      cases taking merge .unit cancel progress first with
      | cut late took =>
          rw [took] at before
          have isCancel := (cancelledBefore?_eq_some_iff.mp late).1
          exact absurd (before _ isCancel) (not_lt_of_ge (le_abandon progress _))
      | ends inTime took moment =>
          rw [took] at before ⊢
          dsimp only at before ⊢
          rw [moment] at before ⊢
          exact taken before
      | goesOn inTime took moment =>
          rw [took] at before ⊢
          refine inductionHypothesis (fun other isOther => turns other
            (List.mem_cons_of_mem _ isOther)) ?_ before
          rw [moment]
          exact taken

namespace Backend

variable {Answer : Type}

/-- A unit that delivers before it is cancelled delivers what the request has ended with. -/
theorem unitDelivery_of_isBeforeCancel {cancel : Option Moment} {start : Moment} {index : Nat}
    {answered : Answered Answer}
    (before : (unitDelivery cancel start index answered).moment.IsBeforeCancel cancel) :
    unitDelivery cancel start index answered =
      ⟨answered.moment.next, answered.ending.outcome index⟩ := by
  unfold unitDelivery at before ⊢
  cases late : cancelledBefore? cancel answered.moment.next with
  | none => rfl
  | some cancelled =>
      rw [late] at before
      have isCancel := (cancelledBefore?_eq_some_iff.mp late).1
      have cut : Moment.later cancelled.next start.next < cancelled := before cancelled isCancel
      rw [Moment.later_eq_max] at cut
      exact absurd (le_trans (Moment.le_next cancelled) (le_max_left _ _)) (not_le_of_gt cut)

theorem mock_collectionTurn (request : Request Answer) (cancel : Option Moment) {start : Moment}
    (collection : start.IsCollectionTurn) (mock : Mock)
    (before : (mock.answer request cancel start).moment.IsBeforeCancel cancel) :
    (mock.answer request cancel start).moment.IsCollectionTurn := by
  unfold Mock.answer at before ⊢
  cases yields : mock.yieldsTo? cancel with
  | some cancelled =>
      rw [yields] at before
      rcases mock_yieldsTo?_some yields with ⟨_, isCancel, _⟩
      have cut : Moment.later cancelled start < cancelled := before cancelled isCancel
      rw [Moment.later_eq_max] at cut
      exact absurd (le_max_left cancelled start) (not_le_of_gt cut)
  | none =>
      change (mock.finish start).IsCollectionTurn
      unfold Mock.finish
      by_cases immediate : mock.delayMillis = 0
      · rwa [if_pos immediate]
      · rw [if_neg immediate]
        exact Moment.isCollectionTurn_ofTimer immediate

mutual

/-- A request that ends before it is cancelled ends in a turn of collectors. -/
theorem answer_collectionTurn (request : Request Answer) (cancel : Option Moment) {start : Moment}
    (collection : start.IsCollectionTurn) (backend : Backend)
    (before : (backend.answer request cancel .unit start).moment.IsBeforeCancel cancel) :
    (backend.answer request cancel .unit start).moment.IsCollectionTurn := by
  cases backend with
  | mock scripted => exact mock_collectionTurn request cancel collection scripted before
  | fixture name snapshot =>
      have atStart : (snapshot.answer request cancel start).moment = start := by
        unfold Fixture.answer
        split <;> rfl
      exact (congrArg Moment.IsCollectionTurn atStart).mpr collection
  | crashing message => exact collection
  | federation settings members =>
      rw [answer_federation] at before ⊢
      exact Progress.conclusion_collectionTurn
        (deliveries_deliveryTurn request cancel collection 0 members) (fun _ => collection) before

/-- What units deliver before they are cancelled they deliver in their turn. -/
theorem deliveries_deliveryTurn (request : Request Answer) (cancel : Option Moment) {start : Moment}
    (collection : start.IsCollectionTurn) (index : Nat) (members : List Backend)
    (delivery : Delivery Answer) (isDelivery : delivery ∈ deliveries request cancel start index members)
    (before : delivery.moment.IsBeforeCancel cancel) : delivery.moment.IsDeliveryTurn := by
  cases members with
  | nil => cases isDelivery
  | cons member rest =>
      rcases List.mem_cons.mp isDelivery with rfl | later
      · have same := unitDelivery_of_isBeforeCancel before
        rw [same] at before ⊢
        have ended := answer_collectionTurn request cancel collection.next.next member
        exact (ended (before.of_le (Moment.le_next _))).next
      · exact deliveries_deliveryTurn request cancel collection (index + 1) rest delivery later before

end

end Backend
end QueryFederation
