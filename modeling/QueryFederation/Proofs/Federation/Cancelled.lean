import Mathlib.Data.List.Forall2
import QueryFederation.Proofs.Federation.Uncancelled

/-!
# Calls that are cancelled

A cancellation changes nothing of what lies before it.  A backend that has ended by the moment of the
cancellation has ended as if there were none, and a unit delivers nothing else by that moment; this holds
at every depth, because what a federation has taken by that moment was delivered by it.  So a caller's
collection either ends before the cancellation, as if there were none, or is abandoned with it.
-/

namespace QueryFederation

/-! ## Taking one delivery under a cancellation -/

theorem cancelledBefore?_eq_some_iff {cancel : Option Moment} {moment cancelled : Moment} :
    cancelledBefore? cancel moment = some cancelled <-> cancel = some cancelled ∧ cancelled < moment := by
  unfold cancelledBefore?
  rw [Option.filter_eq_some_iff, Moment.isBefore_iff]

theorem cancelledBefore?_some_eq_none_iff {cancelled moment : Moment} :
    cancelledBefore? (some cancelled) moment = none <-> moment ≤ cancelled := by
  unfold cancelledBefore?
  rw [Option.filter_some, ← Moment.isBefore_eq_false_iff]
  cases cancelled.isBefore moment <;> simp

namespace Progress

variable {Answer : Type} {merge : Nat -> Answer -> Answer -> Except Fault Answer} {empty : Answer}
  {collector : Collector}

theorem take_of_inTime {cancel : Option Moment} {progress : Progress Answer}
    {delivery : Delivery Answer}
    (inTime : cancelledBefore? cancel (progress.takenAt collector delivery.moment) = none) :
    progress.take merge collector cancel delivery = progress.take merge collector none delivery := by
  unfold take
  dsimp only
  rw [inTime]
  rfl

theorem take_of_cancelled {cancel : Option Moment} {progress : Progress Answer}
    {delivery : Delivery Answer} {cancelled : Moment}
    (late : cancelledBefore? cancel (progress.takenAt collector delivery.moment) = some cancelled) :
    progress.take merge collector cancel delivery = .error (progress.abandon cancelled) := by
  unfold take
  dsimp only
  rw [late]

/-- What comes of the next delivery.  The cancellation cuts the collection off before the delivery is
taken, or has no part in it; then the collection has got to the moment at which the delivery is
taken. -/
inductive Taking (merge : Nat -> Answer -> Answer -> Except Fault Answer) (collector : Collector)
    (cancel : Option Moment) (progress : Progress Answer) (delivery : Delivery Answer) : Prop where
  | cut {cancelled : Moment}
      (late : cancelledBefore? cancel (progress.takenAt collector delivery.moment) = some cancelled)
      (took : progress.take merge collector cancel delivery = .error (progress.abandon cancelled))
  | ends {conclusion : Conclusion Answer}
      (inTime : cancelledBefore? cancel (progress.takenAt collector delivery.moment) = none)
      (took : progress.take merge collector cancel delivery = .error conclusion)
      (moment : conclusion.moment = progress.takenAt collector delivery.moment)
  | goesOn {next : Progress Answer}
      (inTime : cancelledBefore? cancel (progress.takenAt collector delivery.moment) = none)
      (took : progress.take merge collector cancel delivery = .ok next)
      (moment : next.moment = progress.takenAt collector delivery.moment)

theorem taking (merge : Nat -> Answer -> Answer -> Except Fault Answer) (collector : Collector)
    (cancel : Option Moment) (progress : Progress Answer) (delivery : Delivery Answer) :
    Taking merge collector cancel progress delivery := by
  cases late : cancelledBefore? cancel (progress.takenAt collector delivery.moment) with
  | some cancelled => exact .cut late (take_of_cancelled late)
  | none =>
      cases extended : Verdict.extend (merge progress.merges) progress.merged delivery.outcome with
      | ok merged => exact .goesOn late (take_of_extend late extended) rfl
      | error fault => exact .ends late (take_of_extend_error late extended) rfl

theorem moment_le_abandon (progress : Progress Answer) (cancelled : Moment) :
    progress.moment ≤ (progress.abandon cancelled).moment := by
  unfold abandon
  rw [Moment.later_eq_max]
  exact le_max_right _ _

theorem le_abandon (progress : Progress Answer) (cancelled : Moment) :
    cancelled ≤ (progress.abandon cancelled).moment := by
  unfold abandon
  rw [Moment.later_eq_max]
  exact le_max_left _ _

/-- A collection does not end before it has got as far as it has. -/
theorem moment_le_conclusion (cancel : Option Moment) (progress : Progress Answer)
    (deliveries : List (Delivery Answer)) :
    progress.moment ≤ (progress.conclusion merge empty collector cancel deliveries).moment := by
  induction deliveries generalizing progress with
  | nil => exact le_refl _
  | cons delivery rest inductionHypothesis =>
      have notBack := moment_le_takenAt progress collector delivery.moment
      rw [conclusion_cons]
      cases taking merge collector cancel progress delivery with
      | cut late took =>
          rw [took]
          exact moment_le_abandon progress _
      | ends inTime took moment =>
          rw [took]
          exact le_of_le_of_eq notBack moment.symm
      | goesOn inTime took moment =>
          rw [took]
          exact le_trans (le_of_le_of_eq notBack moment.symm) (inductionHypothesis _)

/-- A collection does not end before it has taken a delivery that it takes. -/
theorem takenAt_le_conclusion {cancel : Option Moment} {progress : Progress Answer}
    {delivery : Delivery Answer}
    (inTime : cancelledBefore? cancel (progress.takenAt collector delivery.moment) = none)
    (rest : List (Delivery Answer)) :
    progress.takenAt collector delivery.moment ≤
      (progress.conclusion merge empty collector cancel (delivery :: rest)).moment := by
  rw [conclusion_cons]
  cases taking merge collector cancel progress delivery with
  | cut late took => cases inTime.symm.trans late
  | ends _ took moment =>
      rw [took]
      exact le_of_eq moment.symm
  | goesOn _ took moment =>
      rw [took]
      exact le_of_eq_of_le moment.symm (moment_le_conclusion cancel _ rest)

/-- Two deliveries of which neither lies before a moment unless they are the same. -/
def AgreeBefore (cancelled : Moment) (plain cut : Delivery Answer) : Prop :=
  plain.moment ≤ cancelled ∨ cut.moment ≤ cancelled -> cut = plain

/-- A collection that ends before the cancellation, with it or without, is not changed by it, nor by a
change of the deliveries that come later. -/
theorem conclusion_of_lt {cancelled : Moment} {plain cut : List (Delivery Answer)}
    (agree : List.Forall₂ (AgreeBefore cancelled) plain cut) (progress : Progress Answer)
    (early : (progress.conclusion merge empty collector none plain).moment < cancelled ∨
      (progress.conclusion merge empty collector (some cancelled) cut).moment < cancelled) :
    progress.conclusion merge empty collector (some cancelled) cut =
      progress.conclusion merge empty collector none plain := by
  induction agree generalizing progress with
  | nil => rfl
  | @cons plainFirst cutFirst plainRest cutRest agreeFirst agreeRest inductionHypothesis =>
      -- Either way the first delivery was taken in time, so it is the same on both sides.
      have first : cutFirst = plainFirst ∧
          progress.takenAt collector plainFirst.moment < cancelled := by
        rcases early with plainEarly | cutEarly
        · have taken := lt_of_le_of_lt (takenAt_le_conclusion rfl plainRest) plainEarly
          have delivered := lt_of_le_of_lt (le_takenAt progress collector plainFirst.moment) taken
          exact ⟨agreeFirst (Or.inl (le_of_lt delivered)), taken⟩
        · cases late : cancelledBefore? (some cancelled)
              (progress.takenAt collector cutFirst.moment) with
          | some other =>
              rw [conclusion_cons, take_of_cancelled late] at cutEarly
              rcases cancelledBefore?_eq_some_iff.mp late with ⟨isCancel, _⟩
              cases isCancel
              exact absurd cutEarly (not_lt_of_ge (le_abandon progress cancelled))
          | none =>
              have taken := lt_of_le_of_lt (takenAt_le_conclusion late cutRest) cutEarly
              have delivered := lt_of_le_of_lt (le_takenAt progress collector cutFirst.moment) taken
              have same := agreeFirst (Or.inr (le_of_lt delivered))
              exact ⟨same, same ▸ taken⟩
      rcases first with ⟨rfl, taken⟩
      have inTime : cancelledBefore? (some cancelled)
          (progress.takenAt collector cutFirst.moment) = none :=
        cancelledBefore?_some_eq_none_iff.mpr (le_of_lt taken)
      rw [conclusion_cons, conclusion_cons, take_of_inTime inTime] at early ⊢
      cases result : progress.take merge collector none cutFirst with
      | error conclusion => rfl
      | ok next =>
          rw [result] at early
          exact inductionHypothesis next early

/-- A caller is woken only when all rounds are over, and so never at the moment of a cancellation. -/
theorem caller_takenAt_ne {cancelled : Moment} (isRound : cancelled.IsRound)
    {progress : Progress Answer} (apart : progress.moment ≠ cancelled) (delivered : Moment) :
    progress.takenAt .caller delivered ≠ cancelled := by
  rcases takenAt_eq_or progress .caller delivered with ⟨_, taken⟩ | ⟨_, taken⟩
  · rcases isRound with ⟨number, phase⟩
    rw [taken]
    intro same
    rw [← same] at phase
    cases phase
  · rwa [taken]

/-- A caller who has got no further than to a moment before the cancellation either ends before it too,
or is cancelled by it. -/
theorem conclusion_lt_or_cancelled {cancelled : Moment} (isRound : cancelled.IsRound)
    (deliveries : List (Delivery Answer)) {progress : Progress Answer}
    (before : progress.moment < cancelled) :
    (progress.conclusion merge empty .caller (some cancelled) deliveries).moment < cancelled ∨
      (progress.conclusion merge empty .caller (some cancelled) deliveries).outcome =
          .error .cancelled ∧
        (progress.conclusion merge empty .caller (some cancelled) deliveries).moment = cancelled := by
  induction deliveries generalizing progress with
  | nil => exact Or.inl before
  | cons delivery rest inductionHypothesis =>
      have strictly (inTime : cancelledBefore? (some cancelled)
          (progress.takenAt .caller delivery.moment) = none) :
          progress.takenAt .caller delivery.moment < cancelled :=
        lt_of_le_of_ne (cancelledBefore?_some_eq_none_iff.mp inTime)
          (caller_takenAt_ne isRound (ne_of_lt before) delivery.moment)
      rw [conclusion_cons]
      cases taking merge .caller (some cancelled) progress delivery with
      | cut late took =>
          rcases cancelledBefore?_eq_some_iff.mp late with ⟨isCancel, _⟩
          cases isCancel
          rw [took]
          refine Or.inr ⟨rfl, ?_⟩
          change Moment.later cancelled progress.moment = cancelled
          rw [Moment.later_eq_max, max_eq_left (le_of_lt before)]
      | ends inTime took moment =>
          rw [took]
          exact Or.inl (lt_of_eq_of_lt moment (strictly inTime))
      | goesOn inTime took moment =>
          rw [took]
          exact inductionHypothesis (lt_of_eq_of_lt moment (strictly inTime))

end Progress

/-! ## Backends under a cancellation -/

namespace Backend

variable {Answer : Type}

theorem unitDelivery_of_le {cancelled start : Moment} {index : Nat} {answered : Answered Answer}
    (inTime : answered.moment.next ≤ cancelled) :
    unitDelivery (some cancelled) start index answered = unitDelivery none start index answered := by
  unfold unitDelivery
  rw [cancelledBefore?_some_eq_none_iff.mpr inTime]
  rfl

/-- A unit that is cancelled delivers after its cancellation. -/
theorem lt_unitDelivery {cancelled start : Moment} {index : Nat} {answered : Answered Answer}
    (isRound : cancelled.IsRound) (late : cancelled < answered.moment.next) :
    cancelled < (unitDelivery (some cancelled) start index answered).moment := by
  unfold unitDelivery
  rw [cancelledBefore?_eq_some_iff.mpr ⟨rfl, late⟩]
  change cancelled < Moment.later cancelled.next start.next
  rw [Moment.later_eq_max]
  exact lt_of_lt_of_le isRound.lt_next (le_max_left _ _)

/-- A mock yields to a cancellation that comes before its timer. -/
theorem mock_yieldsTo?_some {mock : Mock} {cancel : Option Moment} {cancelled : Moment}
    (yields : mock.yieldsTo? cancel = some cancelled) :
    mock.delayMillis ≠ 0 ∧ cancel = some cancelled ∧
      cancelled < Moment.ofTimer mock.delayMillis := by
  unfold Mock.yieldsTo? at yields
  split at yields
  · cases yields
  · rename_i patient
    exact ⟨fun immediate => patient (Or.inl immediate), cancelledBefore?_eq_some_iff.mp yields⟩

theorem mock_answer_of_next_le (request : Request Answer) {cancelled : Moment}
    (isRound : cancelled.IsRound) (start : Moment) (mock : Mock)
    (early : (mock.answer request none start).moment.next ≤ cancelled ∨
      (mock.answer request (some cancelled) start).moment.next ≤ cancelled) :
    mock.answer request (some cancelled) start = mock.answer request none start := by
  unfold Mock.answer at early ⊢
  rw [mock_yieldsTo?_none] at early ⊢
  cases yields : mock.yieldsTo? (some cancelled) with
  | none => rfl
  | some other =>
      rw [yields] at early
      rcases mock_yieldsTo?_some yields with ⟨waits, isCancel, before⟩
      cases isCancel
      -- The mock would answer after the cancellation, and yields no earlier than at it.
      rcases early with plainEarly | cutEarly
      · have finish : mock.finish start = Moment.ofTimer mock.delayMillis := if_neg waits
        have ended := isRound.lt_of_next_le plainEarly
        dsimp only at ended
        rw [finish] at ended
        exact absurd ended (not_lt_of_gt before)
      · have ended := isRound.lt_of_next_le cutEarly
        dsimp only at ended
        rw [Moment.later_eq_max] at ended
        exact absurd (le_max_left cancelled start) (not_le_of_gt ended)

theorem fixture_answer_of_next_le (request : Request Answer) {cancelled : Moment}
    (isRound : cancelled.IsRound) (start : Moment) (fixture : Fixture)
    (early : (fixture.answer request none start).moment.next ≤ cancelled ∨
      (fixture.answer request (some cancelled) start).moment.next ≤ cancelled) :
    fixture.answer request (some cancelled) start = fixture.answer request none start := by
  have began : start.next ≤ cancelled := by
    unfold Fixture.answer at early
    rcases early with plainEarly | cutEarly
    · exact plainEarly
    · cases before : cancelledBefore? (some cancelled) start <;> rw [before] at cutEarly <;>
        exact cutEarly
  unfold Fixture.answer
  rw [cancelledBefore?_some_eq_none_iff.mpr (le_of_lt (isRound.lt_of_next_le began))]
  rfl

mutual

/-- A call that has ended before the cancellation, with it or without, is not changed by it. -/
theorem answer_of_next_le (request : Request Answer) {cancelled : Moment}
    (isRound : cancelled.IsRound) (collector : Collector) (start : Moment) (backend : Backend)
    (early : (backend.answer request none collector start).moment.next ≤ cancelled ∨
      (backend.answer request (some cancelled) collector start).moment.next ≤ cancelled) :
    backend.answer request (some cancelled) collector start =
      backend.answer request none collector start := by
  cases backend with
  | mock scripted => exact mock_answer_of_next_le request isRound start scripted early
  | fixture name snapshot => exact fixture_answer_of_next_le request isRound start snapshot early
  | crashing message => rfl
  | federation settings members =>
      have agree := deliveries_agreeBefore request isRound start 0 members
      rw [answer_federation, answer_federation] at early ⊢
      have same := Progress.conclusion_of_lt agree (Progress.start start)
        (early.imp isRound.lt_of_next_le isRound.lt_of_next_le)
      rw [same]

/-- What the units of a federation deliver by the cancellation is not changed by it. -/
theorem deliveries_agreeBefore (request : Request Answer) {cancelled : Moment}
    (isRound : cancelled.IsRound) (start : Moment) (index : Nat) (members : List Backend) :
    List.Forall₂ (Progress.AgreeBefore cancelled) (deliveries request none start index members)
      (deliveries request (some cancelled) start index members) := by
  cases members with
  | nil => exact .nil
  | cons member rest =>
      refine .cons ?_ (deliveries_agreeBefore request isRound start (index + 1) rest)
      intro early
      have ended : (member.answer request none .unit start.next.next).moment.next ≤ cancelled ∨
          (member.answer request (some cancelled) .unit start.next.next).moment.next ≤ cancelled := by
        refine early.imp id ?_
        intro cutEarly
        by_contra late
        exact absurd cutEarly (not_le_of_gt (lt_unitDelivery isRound (lt_of_not_ge late)))
      rw [answer_of_next_le request isRound .unit start.next.next member ended]
      apply unitDelivery_of_le
      rw [answer_of_next_le request isRound .unit start.next.next member ended] at ended
      exact ended.elim id id

end

/-! ## Calls by a caller -/

/-- A call that begins in the first millisecond does not end before it begins. -/
theorem start_le_answer (request : Request Answer) (collector : Collector) (start : Moment)
    (atZero : start.millis = 0) (backend : Backend) :
    start ≤ (backend.answer request none collector start).moment := by
  cases backend with
  | mock scripted =>
      simp only [answer, Mock.answer, mock_yieldsTo?_none, Mock.finish]
      by_cases immediate : scripted.delayMillis = 0
      · rw [if_pos immediate]
      · rw [if_neg immediate]
        apply le_of_lt (Moment.lt_of_millis_lt _)
        rw [atZero]
        exact Nat.pos_of_ne_zero immediate
  | fixture name snapshot => exact le_refl _
  | crashing message => exact le_refl _
  | federation settings members =>
      rw [answer_federation]
      exact Progress.moment_le_conclusion none (Progress.start start) _

/-- The call of a federation, as the collection of what its units deliver. -/
theorem call_federation (request : Request Answer) (cancel : Option Cancellation)
    (settings : FederationSettings) (members : List Backend) :
    (federation settings members).call request cancel =
      let conclusion := (Progress.start Moment.callStart).conclusion
        (fun _ => request.merge settings.window) request.empty .caller
        (cancel.map Cancellation.moment)
        (deliveries request (cancel.map Cancellation.moment) Moment.callStart 0 members)
      ⟨conclusion.moment, .returned conclusion.outcome, conclusion.merges⟩ :=
  answer_federation request (cancel.map Cancellation.moment) .caller Moment.callStart settings members

/-- The time of a call that nobody cancels. -/
theorem call_uncancelled_millis (request : Request Answer) (backend : Backend) :
    (backend.call request none).moment.millis =
      (backend.respondent request).finishMillis request :=
  (answer_uncancelled request .caller Moment.callStart rfl backend).2

theorem call_uncancelled_ending (request : Request Answer) (backend : Backend) :
    (backend.call request none).ending = (backend.respondent request).ending request :=
  (answer_uncancelled request .caller Moment.callStart rfl backend).1

theorem isRound_cancellation (cancellation : Cancellation) : cancellation.moment.IsRound := by
  cases cancellation with
  | upFront => exact ⟨0, rfl⟩
  | after millis => exact ⟨2, rfl⟩

/-- A call that is cancelled while it runs either ends before, as if it were not cancelled, or ends with
its cancellation and at that moment. -/
theorem call_after_cases (request : Request Answer) (millis : Nat) (settings : FederationSettings)
    (members : List Backend) :
    (((federation settings members).call request none).moment <
          (Cancellation.after millis).moment ∧
        (federation settings members).call request (some (.after millis)) =
          (federation settings members).call request none) ∨
      (((federation settings members).call request (some (.after millis))).ending =
          .returned (.error .cancelled) ∧
        ((federation settings members).call request (some (.after millis))).moment =
          (Cancellation.after millis).moment) := by
  have isRound := isRound_cancellation (.after millis)
  have begins : (Progress.start Moment.callStart : Progress Answer).moment <
      (Cancellation.after millis).moment := Moment.callStart_lt_after millis
  rw [call_federation, call_federation]
  dsimp only [Option.map_none, Option.map_some]
  rcases Progress.conclusion_lt_or_cancelled isRound
      (deliveries request (some (Cancellation.after millis).moment) Moment.callStart 0 members)
      begins with early | ⟨outcome, moment⟩
  · have same := Progress.conclusion_of_lt
      (deliveries_agreeBefore request isRound Moment.callStart 0 members)
      (Progress.start Moment.callStart) (Or.inr early)
    rw [same] at early ⊢
    exact Or.inl ⟨early, rfl⟩
  · right
    exact ⟨congrArg Ending.returned outcome, moment⟩

/-- A call that would end before its cancellation is not changed by it. -/
theorem call_after_of_finish_lt (request : Request Answer) {millis : Nat}
    (settings : FederationSettings) (members : List Backend)
    (ended : ((federation settings members).respondent request).finishMillis request < millis) :
    (federation settings members).call request (some (.after millis)) =
      (federation settings members).call request none := by
  rw [← call_uncancelled_millis] at ended
  have early : ((federation settings members).call request none).moment <
      (Cancellation.after millis).moment := Moment.lt_of_millis_lt ended
  rw [call_federation] at early
  rw [call_federation, call_federation]
  dsimp only [Option.map_none, Option.map_some] at early ⊢
  have same := Progress.conclusion_of_lt
    (deliveries_agreeBefore request (isRound_cancellation (.after millis)) Moment.callStart 0
      members)
    (Progress.start Moment.callStart) (Or.inl early)
  rw [same]

/-- A call that would end after its cancellation ends with it. -/
theorem call_after_of_lt_finish (request : Request Answer) {millis : Nat}
    (settings : FederationSettings) (members : List Backend)
    (running : millis < ((federation settings members).respondent request).finishMillis request) :
    ((federation settings members).call request (some (.after millis))).ending =
        .returned (.error .cancelled) ∧
      ((federation settings members).call request (some (.after millis))).moment =
        (Cancellation.after millis).moment := by
  rcases call_after_cases request millis settings members with ⟨early, _⟩ | cancelled
  · have notAfter := Moment.millis_le_of_le (le_of_lt early)
    rw [call_uncancelled_millis] at notAfter
    exact absurd running (Nat.not_lt_of_ge notAfter)
  · exact cancelled

/-- A deadline of no time at all comes before the first unit of a federation can deliver. -/
theorem call_after_zero (request : Request Answer) (settings : FederationSettings)
    (members : List Backend) (nonempty : members ≠ []) :
    ((federation settings members).call request (some (.after 0))).ending =
        .returned (.error .cancelled) ∧
      ((federation settings members).call request (some (.after 0))).moment =
        (Cancellation.after 0).moment := by
  rcases call_after_cases request 0 settings members with ⟨early, _⟩ | cancelled
  · cases members with
    | nil => exact absurd rfl nonempty
    | cons member rest =>
        rw [call_federation] at early
        have taken := lt_of_le_of_lt (Progress.takenAt_le_conclusion rfl _) early
        have delivered := lt_of_le_of_lt (Progress.le_takenAt _ _ _) taken
        have begun := start_le_answer request .unit Moment.callStart.next.next rfl member
        have tooEarly := lt_of_le_of_lt (le_trans begun (Moment.le_next _)) delivered
        exact absurd ((Moment.isBefore_iff _ _).mpr tooEarly) (by decide)
  · exact cancelled

/-- A federation with members is not asked in a call that is cancelled up front. -/
theorem call_upFront (request : Request Answer) (settings : FederationSettings)
    (members : List Backend) (nonempty : members ≠ []) :
    (federation settings members).call request (some .upFront) =
      ⟨Moment.callStart, .returned (.error .cancelled), 0⟩ := by
  cases members with
  | nil => exact absurd rfl nonempty
  | cons member rest =>
      rw [call_federation]
      have late : (Cancellation.upFront.moment : Moment) <
          (Progress.start Moment.callStart : Progress Answer).takenAt .caller
            (unitDelivery (some Cancellation.upFront.moment) Moment.callStart 0
              (member.answer request (some Cancellation.upFront.moment) .unit
                Moment.callStart.next.next)).moment :=
        lt_of_lt_of_le
          ((Moment.isBefore_iff Cancellation.upFront.moment Moment.callStart).mp (by decide))
          (Progress.moment_le_takenAt (Progress.start Moment.callStart) _ _)
      dsimp only [Option.map_some, deliveries]
      rw [Progress.conclusion_cons,
        Progress.take_of_cancelled (cancelledBefore?_eq_some_iff.mpr ⟨rfl, late⟩)]
      rfl

end Backend
end QueryFederation
