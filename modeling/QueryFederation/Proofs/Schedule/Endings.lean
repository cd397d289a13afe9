import QueryFederation.Proofs.Schedule.Standing

/-!
# When and how a call ends in every order of its steps

A call that nobody withdraws ends as its tree says and at the time that the tree says.  A call of a
federation that is withdrawn ends in the same way if it is due before, and else with its cancellation
and at that time.  Only when the cancellation comes in the very millisecond in which the call is due may
the order of the steps decide between the two.
-/

namespace QueryFederation
namespace Schedule

variable {Answer : Type} {plan : Plan Answer} {now later : Situation Answer}

/-! ## Calls that nobody withdraws -/

theorem Reachable.not_cancelled (reachable : Reachable plan now) (never : plan.cancel = none) :
    now.isCancelled = false := by
  apply reachable.invariant fun situation => situation.isCancelled = false
  · rw [never]
    rfl
  · intro before after _ uncancelled step
    cases step with
    | pass quiet => exact uncancelled
    | work step =>
        rcases step.isCancelled_cases with same | ⟨planned, _⟩
        · exact same.trans uncancelled
        · rw [never] at planned
          cases planned

/-- The request of the caller is not dropped. -/
theorem Coherent.root_ended (coherent : Coherent plan now) (isOver : (now.requests []).IsOver) :
    exists millis ending, now.requests [] = .ended millis ending := by
  cases phase : now.requests [] with
  | unstarted => exact absurd isOver (phase ▸ id)
  | sleeping => exact absurd isOver (phase ▸ id)
  | collecting merged lastFault => exact absurd isOver (phase ▸ id)
  | ended millis ending => exact ⟨millis, ending, rfl⟩
  | dropped => exact absurd rfl (coherent.withdrawn_of_dropped (Or.inl phase)).1
  | skipped => exact absurd rfl (coherent.withdrawn_of_dropped (Or.inr phase)).1

/-- A call that nobody withdraws ends as its tree says, in every order of steps. -/
theorem alwaysEnds_of_never (plan : Plan Answer) {outcome : Except Fault Answer}
    (never : plan.cancel = none)
    (returns : plan.root.ending plan.request = .returned outcome) :
    AlwaysEnds plan (plan.root.finishMillis plan.request) outcome := by
  apply Reachable.inevitably (plan.root.finishMillis plan.request) _ .refl
  intro now reachable unreached
  have there := plan.root.at?_nil
  have standing : ¬ now.IsWithdrawn [] := by
    rw [Situation.isWithdrawn_nil_iff, reachable.not_cancelled never]
    exact Bool.false_ne_true
  apply reachable.sound.inTime standing there
  intro isOver
  rcases reachable.coherent.root_ended isOver with ⟨millis, ending, ended⟩
  rcases reachable.sound.ended standing ended there with ⟨sameEnding, sameMillis⟩
  apply unreached
  rw [ended, sameEnding, sameMillis, returns]

/-! ## Calls that are withdrawn -/

/-- How the call of a federation keeps to its time and to that of its cancellation. -/
structure Timely (plan : Plan Answer) (settings : FederationSettings)
    (members : List (Respondent Answer)) (now : Situation Answer) : Prop where
  upFront : plan.cancel = some .upFront -> now.isCancelled = true ∧ now.taken [] = []
  uncancelled : forall {millis : Nat}, now.isCancelled = false ->
    plan.cancel = some (.after millis) -> now.millis ≤ millis
  cancelled : now.isCancelled = true -> exists cancellation, plan.cancel = some cancellation ∧
    cancellation.moment.millis ≤ now.millis ∧
    (¬ (now.requests []).IsOver -> now.millis = cancellation.moment.millis)
  inTime : ¬ (now.requests []).IsOver ->
    now.millis ≤ (Respondent.federation settings members).finishMillis plan.request
  ended : forall {millis : Nat} {ending : Ending Answer}, now.requests [] = .ended millis ending ->
    (ending = (Respondent.federation settings members).ending plan.request ∧
        millis = (Respondent.federation settings members).finishMillis plan.request ∧
        (plan.cancel = some .upFront -> members = []) ∧
        forall limit, plan.cancel = some (.after limit) -> millis ≤ limit) ∨
      (ending = .returned (.error .cancelled) ∧ members ≠ [] ∧
        millis ≤ (Respondent.federation settings members).finishMillis plan.request ∧
        exists cancellation, plan.cancel = some cancellation ∧ millis = cancellation.moment.millis)

theorem timely_start (plan : Plan Answer) (settings : FederationSettings)
    (members : List (Respondent Answer)) :
    Timely plan settings members (Situation.start plan.cancel) where
  upFront := fun planned => ⟨decide_eq_true planned, rfl⟩
  uncancelled := fun _ _ => Nat.zero_le _
  cancelled := fun cancelled =>
    ⟨.upFront, of_decide_eq_true cancelled, Nat.le_refl 0, fun _ => rfl⟩
  inTime := fun _ => Nat.zero_le _
  ended := fun ended => nomatch ended

/-- A federation whose request is withdrawn has something to do until it is over. -/
theorem exists_work_of_withdrawn (coherent : Coherent plan now) {place : Backend.Place}
    {settings : FederationSettings} {members : List (Respondent Answer)}
    (there : plan.root.at? place = some (.federation settings members)) (asked : now.IsAsked place)
    (withdrawn : now.IsWithdrawn place) (pending : ¬ (now.requests place).IsOver) :
    exists later, Work plan now later := by
  cases phase : now.requests place with
  | unstarted => exact ⟨_, .startFederation there asked phase⟩
  | sleeping =>
      rcases coherent.asleep phase with ⟨script, isLeaf⟩
      cases there.symm.trans isLeaf
  | collecting merged lastFault =>
      rcases Nat.lt_or_eq_of_le (coherent.taken_length_le there) with unfinished | finished
      · exact ⟨_, .withdraws there phase unfinished withdrawn⟩
      · exact ⟨_, .concludes there phase finished⟩
  | ended millis ending => exact absurd (phase ▸ trivial) pending
  | dropped => exact absurd (phase ▸ trivial) pending
  | skipped => exact absurd (phase ▸ trivial) pending

namespace Timely

variable {settings : FederationSettings} {members : List (Respondent Answer)}

theorem work_ended (coherent : Coherent plan now) (sound : Sound plan now)
    (isFederation : plan.root = .federation settings members)
    (timely : Timely plan settings members now) (step : Work plan now later)
    {millis : Nat} {ending : Ending Answer} (ended : later.requests [] = .ended millis ending) :
    (ending = (Respondent.federation settings members).ending plan.request ∧
        millis = (Respondent.federation settings members).finishMillis plan.request ∧
        (plan.cancel = some .upFront -> members = []) ∧
        forall limit, plan.cancel = some (.after limit) -> millis ≤ limit) ∨
      (ending = .returned (.error .cancelled) ∧ members ≠ [] ∧
        millis ≤ (Respondent.federation settings members).finishMillis plan.request ∧
        exists cancellation, plan.cancel = some cancellation ∧
          millis = cancellation.moment.millis) := by
  have root : plan.root.at? [] = some (.federation settings members) := by
    rw [Respondent.at?_nil, isFederation]
  cases step.requestChange [] with
  | unchanged same => exact timely.ended (same.symm.trans ended)
  | starts there asked fresh begun =>
      cases root.symm.trans there
      cases begun.symm.trans ended
  | leafEnds there => cases root.symm.trans there
  | leafYields there => cases root.symm.trans there
  | takes there collecting standing lies extended collects => cases collects.symm.trans ended
  | mergeFails there collecting standing lies failed isOver oneMore =>
      cases root.symm.trans there
      cases isOver.symm.trans ended
      rcases coherent.collected collecting with ⟨_, _, same, soFar, _⟩
      cases root.symm.trans same
      rcases (sound.work_inOrder coherent step []).verdict_of_broken root oneMore
        soFar failed ((coherent.work step).taken_length_le root) with ⟨verdict, due⟩
      rw [step.sameMillis] at due
      rw [Situation.isWithdrawn_nil_iff, Bool.not_eq_true] at standing
      left
      refine ⟨verdict, Nat.le_antisymm (timely.inTime (collecting ▸ id)) due, ?_, ?_⟩
      · intro planned
        exact absurd (timely.upFront planned).1 (standing ▸ Bool.false_ne_true)
      · intro limit planned
        exact timely.uncancelled standing planned
  | withdraws there collecting unfinished withdrawn isOver =>
      cases root.symm.trans there
      cases isOver.symm.trans ended
      have pending : ¬ (now.requests []).IsOver := collecting ▸ id
      rcases timely.cancelled ((Situation.isWithdrawn_nil_iff _).mp withdrawn) with
          ⟨cancellation, planned, _, atIt⟩
      right
      refine ⟨rfl, ?_, timely.inTime pending, cancellation, planned, atIt pending⟩
      intro none
      rw [none] at unfinished
      exact Nat.not_lt_zero _ unfinished
  | concludes there collecting finished isOver =>
      cases root.symm.trans there
      cases isOver.symm.trans ended
      have pending : ¬ (now.requests []).IsOver := collecting ▸ id
      rcases coherent.collected collecting with ⟨_, _, same, soFar, last⟩
      cases root.symm.trans same
      rcases (sound.inOrder []).verdict_of_whole root soFar last finished with ⟨verdict, due⟩
      left
      refine ⟨verdict, Nat.le_antisymm (timely.inTime pending) due, ?_, ?_⟩
      · intro planned
        rw [(timely.upFront planned).2] at finished
        exact List.length_eq_zero_iff.mp finished.symm
      · intro limit planned
        cases isCancelled : now.isCancelled with
        | false => exact timely.uncancelled isCancelled planned
        | true =>
            rcases timely.cancelled isCancelled with ⟨cancellation, alsoPlanned, _, atIt⟩
            cases planned.symm.trans alsoPlanned
            exact Nat.le_of_eq (atIt pending)
  | drops isMember => exact absurd isMember.symm (List.concat_ne_nil _ _)

theorem work (coherent : Coherent plan now) (sound : Sound plan now)
    (isFederation : plan.root = .federation settings members)
    (timely : Timely plan settings members now) (step : Work plan now later) :
    Timely plan settings members later where
  upFront := by
    intro planned
    rcases timely.upFront planned with ⟨isCancelled, nothing⟩
    have withdrawn := (Situation.isWithdrawn_nil_iff now).mpr isCancelled
    refine ⟨(Situation.isWithdrawn_nil_iff later).mp (step.withdrawn_stays withdrawn), ?_⟩
    rcases step.takenChange [] with sameTaken | ⟨_, _, standing, _⟩
    · exact sameTaken.trans nothing
    · exact absurd withdrawn standing
  uncancelled := by
    intro millis uncancelled planned
    rw [step.sameMillis]
    rcases step.isCancelled_cases with same | ⟨_, cancelled⟩
    · exact timely.uncancelled (same.symm.trans uncancelled) planned
    · cases cancelled.symm.trans uncancelled
  cancelled := by
    intro cancelled
    rw [step.sameMillis]
    rcases step.isCancelled_cases with same | ⟨planned, _⟩
    · rcases timely.cancelled (same.symm.trans cancelled) with
          ⟨cancellation, planned, notBefore, atIt⟩
      exact ⟨cancellation, planned, notBefore, fun pending => atIt (step.pending_before pending)⟩
    · exact ⟨_, planned, Nat.le_refl _, fun _ => rfl⟩
  inTime := by
    intro pending
    rw [step.sameMillis]
    exact timely.inTime (step.pending_before pending)
  ended := timely.work_ended coherent sound isFederation step

theorem pass (coherent : Coherent plan now) (sound : Sound plan now)
    (isFederation : plan.root = .federation settings members)
    (timely : Timely plan settings members now) (quiet : IsQuiet plan now) :
    Timely plan settings members { now with millis := now.millis + 1 } := by
  have root : plan.root.at? [] = some (.federation settings members) := by
    rw [Respondent.at?_nil, isFederation]
  have asked : now.IsAsked [] := Or.inl rfl
  -- A federation that has been withdrawn would have something to do.
  have standing (pending : ¬ (now.requests []).IsOver) : ¬ now.IsWithdrawn [] := by
    intro withdrawn
    rcases exists_work_of_withdrawn coherent root asked withdrawn pending with ⟨later, step⟩
    exact quiet later step
  refine ⟨timely.upFront, ?_, ?_, ?_, timely.ended⟩
  · intro millis uncancelled planned
    apply Nat.lt_of_le_of_ne (timely.uncancelled uncancelled planned)
    intro same
    rw [← same] at planned
    exact quiet _ (.cancels planned uncancelled)
  · intro cancelled
    rcases timely.cancelled cancelled with ⟨cancellation, planned, notBefore, _⟩
    refine ⟨cancellation, planned, Nat.le_succ_of_le notBefore, ?_⟩
    intro pending
    exact absurd ((Situation.isWithdrawn_nil_iff now).mpr cancelled) (standing pending)
  · intro pending
    exact lt_finish_of_quiet coherent sound quiet root (standing pending) asked pending

end Timely

theorem Reachable.timely (reachable : Reachable plan now) {settings : FederationSettings}
    {members : List (Respondent Answer)} (isFederation : plan.root = .federation settings members) :
    Timely plan settings members now := by
  apply reachable.invariant _ (timely_start plan settings members)
  intro before after run timely step
  cases step with
  | work step => exact timely.work run.coherent run.sound isFederation step
  | pass quiet => exact timely.pass run.coherent run.sound isFederation quiet

section Federation

variable {request : Request Answer} {settings : FederationSettings}
  {members : List (Respondent Answer)} {cancel : Option Cancellation} {millis : Nat}
  {outcome : Except Fault Answer}

/-- The call of a federation comes to an end, so it always ends in the only way in which it can. -/
theorem alwaysEnds_of_only
    (only : forall {now : Situation Answer} {at' : Nat} {ending : Ending Answer},
      Reachable ⟨request, .federation settings members, cancel⟩ now ->
        now.requests [] = .ended at' ending -> at' = millis ∧ ending = .returned outcome) :
    AlwaysEnds ⟨request, .federation settings members, cancel⟩ millis outcome := by
  apply Reachable.inevitably ((Respondent.federation settings members).finishMillis request) _ .refl
  intro now reachable unreached
  apply (reachable.timely rfl).inTime
  intro isOver
  rcases reachable.coherent.root_ended isOver with ⟨at', ending, ended⟩
  rcases only reachable ended with ⟨rfl, rfl⟩
  exact unreached ended

/-- A call that is due before its cancellation, or that has nobody to wait for, ends as if there were
none. -/
theorem alwaysEnds_of_undisturbed
    (undisturbed : members = [] ∨ exists limit, cancel = some (.after limit) ∧
      (Respondent.federation settings members).finishMillis request < limit) :
    AlwaysEnds ⟨request, .federation settings members, cancel⟩
      ((Respondent.federation settings members).finishMillis request)
      (Verdict.ofOutcomes (request.merge settings.window) request.empty
        (Respondent.outcomes request members)) := by
  apply alwaysEnds_of_only
  intro now at' ending reachable ended
  rcases (reachable.timely rfl).ended ended with
    ⟨verdict, atFinish, _⟩ | ⟨_, nonempty, notAfter, cancellation, planned, atIt⟩
  · exact ⟨atFinish, verdict⟩
  · rcases undisturbed with none | ⟨limit, sameCancel, due⟩
    · exact absurd none nonempty
    · cases sameCancel.symm.trans planned
      rw [atIt] at notAfter
      exact absurd due (Nat.not_lt_of_ge notAfter)

/-- A call that is cancelled before it is due ends with the cancellation and at its time. -/
theorem alwaysEnds_of_lt_finish
    (running : millis < (Respondent.federation settings members).finishMillis request) :
    AlwaysEnds ⟨request, .federation settings members, some (.after millis)⟩ millis
      (.error .cancelled) := by
  apply alwaysEnds_of_only
  intro now at' ending reachable ended
  rcases (reachable.timely rfl).ended ended with
    ⟨_, atFinish, _, inTime⟩ | ⟨verdict, _, _, cancellation, planned, atIt⟩
  · have notAfter := inTime millis rfl
    rw [atFinish] at notAfter
    exact absurd running (Nat.not_lt_of_ge notAfter)
  · cases planned
    exact ⟨atIt, verdict⟩

/-- A call of a federation with members that is cancelled up front ends with its cancellation. -/
theorem alwaysEnds_of_upFront (nonempty : members ≠ []) :
    AlwaysEnds ⟨request, .federation settings members, some .upFront⟩ 0 (.error .cancelled) := by
  apply alwaysEnds_of_only
  intro now at' ending reachable ended
  rcases (reachable.timely rfl).ended ended with
    ⟨_, _, none, _⟩ | ⟨verdict, _, _, cancellation, planned, atIt⟩
  · exact absurd (none rfl) nonempty
  · cases planned
    exact ⟨atIt, verdict⟩

end Federation

end Schedule
end QueryFederation
