import QueryFederation.Proofs.Schedule.Steps

/-!
# What every situation of a call has in common

The requests, the units and the mailboxes of a call hang together.  Units exist for the members of a
federation that has begun, and for all of them.  A request has run only if its unit has started it, and
it is over when its unit has reported.  What a federation has taken was reported, and it has merged
exactly that.  All of this holds at the start and is kept by every step.
-/

namespace QueryFederation
namespace Schedule

variable {Answer : Type} {plan : Plan Answer} {now later : Situation Answer}

/-! ## What never changes back -/

theorem RequestPhase.afterDrop_isOver (phase : RequestPhase Answer) :
    (Situation.afterDrop phase).IsOver := by
  cases phase <;> exact trivial

theorem RequestPhase.afterDrop_of_isOver {phase : RequestPhase Answer} (isOver : phase.IsOver) :
    Situation.afterDrop phase = phase := by
  cases phase with
  | unstarted => exact absurd isOver id
  | sleeping => exact absurd isOver id
  | collecting merged lastFault => exact absurd isOver id
  | ended millis ending => rfl
  | dropped => rfl
  | skipped => rfl

/-- A request that is over stays as it is. -/
theorem Work.over_stays (step : Work plan now later) {place : Backend.Place}
    (isOver : (now.requests place).IsOver) : later.requests place = now.requests place := by
  cases step.phaseChange place with
  | unchanged same => exact same
  | starts there asked fresh => exact absurd isOver (fresh ▸ id)
  | takes there collecting => exact absurd isOver (collecting ▸ id)
  | ends begun pending => exact absurd isOver pending
  | drops isMember withdrawn dropped => rw [dropped, RequestPhase.afterDrop_of_isOver isOver]

theorem Work.pending_before (step : Work plan now later) {place : Backend.Place}
    (pending : ¬ (later.requests place).IsOver) : ¬ (now.requests place).IsOver := by
  intro isOver
  rw [step.over_stays isOver] at pending
  exact pending isOver

/-- A request that ends in a step ends at the time of that step. -/
theorem Work.ended_now (step : Work plan now later) {place : Backend.Place} {millis : Nat}
    {ending : Ending Answer} (pending : ¬ (now.requests place).IsOver)
    (ended : later.requests place = .ended millis ending) : millis = now.millis := by
  cases step.phaseChange place with
  | unchanged same => exact absurd (same.symm.trans ended ▸ trivial) pending
  | @starts respondent there asked fresh begun => cases respondent <;> cases begun.symm.trans ended
  | takes there collecting extended collects => cases collects.symm.trans ended
  | ends begun pending endedNow =>
      cases endedNow.symm.trans ended
      rfl
  | drops isMember withdrawn dropped =>
      rw [dropped] at ended
      cases phase : now.requests place with
      | ended before earlier => exact absurd (phase ▸ trivial) pending
      | _ =>
          rw [phase] at ended
          cases ended

/-- A request that has begun has begun for good. -/
theorem Work.begun_stays (step : Work plan now later) {place : Backend.Place}
    (begun : (now.requests place).HasBegun) : (later.requests place).HasBegun := by
  cases step.phaseChange place with
  | unchanged same => exact same ▸ begun
  | starts there asked fresh => exact absurd begun (fresh ▸ id)
  | takes there collecting extended collects => exact collects ▸ trivial
  | ends _ pending ended => exact ended ▸ trivial
  | drops isMember withdrawn dropped =>
      rw [dropped]
      cases phase : now.requests place with
      | unstarted => exact absurd begun (phase ▸ id)
      | skipped => exact absurd begun (phase ▸ id)
      | _ => exact trivial

/-- A request that is withdrawn stays so. -/
theorem Work.withdrawn_stays (step : Work plan now later) {place : Backend.Place}
    (withdrawn : now.IsWithdrawn place) : later.IsWithdrawn place := by
  rcases withdrawn with cancelled | ⟨above, isPrefix, different, isOver⟩
  · left
    rcases step.isCancelled_cases with same | ⟨_, cancelledNow⟩
    · exact same.trans cancelled
    · exact cancelledNow
  · right
    refine ⟨above, isPrefix, different, ?_⟩
    rw [step.over_stays isOver]
    exact isOver

/-! ## The invariant -/

/-- How the requests, the units and the mailboxes of a call hang together. -/
structure Coherent (plan : Plan Answer) (now : Situation Answer) : Prop where
  federation_of_unit : forall {place : Backend.Place} {index : Nat},
    now.units place index ≠ .absent ->
      exists settings members, plan.root.at? place = some (.federation settings members) ∧
        index < members.length
  begun_of_unit : forall {place : Backend.Place} {index : Nat},
    now.units place index ≠ .absent -> (now.requests place).HasBegun
  unit_of_begun : forall {place : Backend.Place} {settings : FederationSettings}
    {members : List (Respondent Answer)} {index : Nat},
    plan.root.at? place = some (.federation settings members) ->
      (now.requests place).HasBegun -> index < members.length -> now.units place index ≠ .absent
  unit_of_request : forall {place : Backend.Place} {index : Nat},
    now.requests (place ++ [index]) ≠ .unstarted ->
      now.units place index = .waiting ∨
        exists outcome, now.units place index = .reported outcome
  over_of_reported : forall {place : Backend.Place} {index : Nat} {outcome : Except Fault Answer},
    now.units place index = .reported outcome -> (now.requests (place ++ [index])).IsOver
  reported_of_taken : forall {place : Backend.Place} {index : Nat} {outcome : Except Fault Answer},
    (now.taken place)[index]? = some outcome -> now.units place index = .reported outcome
  collected : forall {place : Backend.Place} {merged : Option Answer} {lastFault : Option Fault},
    now.requests place = .collecting merged lastFault ->
      exists settings members, plan.root.at? place = some (.federation settings members) ∧
        Verdict.merging (plan.request.merge settings.window) (now.taken place) = .ok merged ∧
        lastFault = (Verdict.faults (now.taken place)).getLast?
  asleep : forall {place : Backend.Place}, now.requests place = .sleeping ->
    exists script, plan.root.at? place = some (.leaf script)
  withdrawn_of_dropped : forall {place : Backend.Place},
    now.requests place = .dropped ∨ now.requests place = .skipped ->
      place ≠ [] ∧ now.IsWithdrawn place
  ended_le : forall {place : Backend.Place} {millis : Nat} {ending : Ending Answer},
    now.requests place = .ended millis ending -> millis ≤ now.millis

theorem coherent_start (plan : Plan Answer) : Coherent plan (Situation.start plan.cancel) where
  federation_of_unit := fun present => absurd rfl present
  begun_of_unit := fun present => absurd rfl present
  unit_of_begun := fun _ begun => absurd begun id
  unit_of_request := fun started => absurd rfl started
  over_of_reported := fun reported => nomatch reported
  reported_of_taken := fun taken => nomatch taken
  collected := fun collecting => nomatch collecting
  asleep := fun asleep => nomatch asleep
  withdrawn_of_dropped := fun dropped => by
    rcases dropped with dropped | skipped
    · cases dropped
    · cases skipped
  ended_le := fun ended => nomatch ended

namespace Coherent

/-- A unit that waits or has reported does one of these from then on. -/
theorem unit_stays (coherent : Coherent plan now) (step : Work plan now later)
    {place : Backend.Place} {index : Nat}
    (atWork : now.units place index = .waiting ∨
      exists outcome, now.units place index = .reported outcome) :
    later.units place index = .waiting ∨ exists outcome, later.units place index = .reported outcome := by
  cases step.unitChange place index with
  | unchanged same => exact same ▸ atWork
  | spawns there asked fresh =>
      have present : now.units place index ≠ .absent := by
        rcases atWork with waiting | ⟨outcome, reported⟩
        · exact fun absent => nomatch waiting.symm.trans absent
        · exact fun absent => nomatch reported.symm.trans absent
      exact absurd (coherent.begun_of_unit present) (fresh ▸ id)
  | starts spawned waits => exact Or.inl waits
  | delivers there waiting ended standing reported => exact Or.inr ⟨_, reported⟩
  | abandons there waiting withdrawn dropped reported => exact Or.inr ⟨_, reported⟩

/-- What has been reported remains. -/
theorem reported_stays (coherent : Coherent plan now) (step : Work plan now later)
    {place : Backend.Place} {index : Nat} {outcome : Except Fault Answer}
    (reported : now.units place index = .reported outcome) :
    later.units place index = .reported outcome := by
  cases step.unitChange place index with
  | unchanged same => exact same.trans reported
  | spawns there asked fresh =>
      have present : now.units place index ≠ .absent := fun absent => nomatch reported.symm.trans absent
      exact absurd (coherent.begun_of_unit present) (fresh ▸ id)
  | starts spawned => cases spawned.symm.trans reported
  | delivers there waiting => cases waiting.symm.trans reported
  | abandons there waiting => cases waiting.symm.trans reported

/-- A unit that exists exists for good. -/
theorem present_stays (coherent : Coherent plan now) (step : Work plan now later)
    {place : Backend.Place} {index : Nat} (present : now.units place index ≠ .absent) :
    later.units place index ≠ .absent := by
  cases step.unitChange place index with
  | unchanged same => exact same ▸ present
  | spawns there asked fresh => exact absurd (coherent.begun_of_unit present) (fresh ▸ id)
  | starts spawned waits => exact fun absent => nomatch waits.symm.trans absent
  | delivers there waiting ended standing reported =>
      exact fun absent => nomatch reported.symm.trans absent
  | abandons there waiting withdrawn dropped reported =>
      exact fun absent => nomatch reported.symm.trans absent

/-- Nothing is taken by a federation that has not begun. -/
theorem taken_of_fresh (coherent : Coherent plan now) {place : Backend.Place}
    (fresh : ¬ (now.requests place).HasBegun) : now.taken place = [] := by
  cases taken : now.taken place with
  | nil => rfl
  | cons outcome rest =>
      have first : (now.taken place)[0]? = some outcome := by rw [taken]; rfl
      have reported := coherent.reported_of_taken first
      have present : now.units place 0 ≠ .absent := fun absent => nomatch reported.symm.trans absent
      exact absurd (coherent.begun_of_unit present) fresh

/-- A federation takes no more outcomes than it has members. -/
theorem taken_length_le (coherent : Coherent plan now) {place : Backend.Place}
    {settings : FederationSettings} {members : List (Respondent Answer)}
    (there : plan.root.at? place = some (.federation settings members)) :
    (now.taken place).length ≤ members.length := by
  by_contra exceeds
  have inside : members.length < (now.taken place).length := Nat.lt_of_not_le exceeds
  have reported := coherent.reported_of_taken (List.getElem?_eq_getElem inside)
  have present : now.units place members.length ≠ .absent :=
    fun absent => nomatch reported.symm.trans absent
  rcases coherent.federation_of_unit present with ⟨otherSettings, otherMembers, same, bound⟩
  cases there.symm.trans same
  exact Nat.lt_irrefl _ bound

/-! ## Every step keeps the invariant -/

theorem work_federation_of_unit (coherent : Coherent plan now) (step : Work plan now later)
    {place : Backend.Place} {index : Nat} (present : later.units place index ≠ .absent) :
    exists settings members, plan.root.at? place = some (.federation settings members) ∧
      index < members.length := by
  cases step.unitChange place index with
  | unchanged same => exact coherent.federation_of_unit (same ▸ present)
  | @spawns settings members there asked fresh begun spawned =>
      by_cases inside : index < members.length
      · exact ⟨settings, members, there, inside⟩
      · rw [spawned, if_neg inside] at present
        exact absurd rfl present
  | starts spawned => exact coherent.federation_of_unit fun absent => nomatch spawned.symm.trans absent
  | delivers there waiting =>
      exact coherent.federation_of_unit fun absent => nomatch waiting.symm.trans absent
  | abandons there waiting =>
      exact coherent.federation_of_unit fun absent => nomatch waiting.symm.trans absent

theorem work_begun_of_unit (coherent : Coherent plan now) (step : Work plan now later)
    {place : Backend.Place} {index : Nat} (present : later.units place index ≠ .absent) :
    (later.requests place).HasBegun := by
  cases step.unitChange place index with
  | unchanged same => exact step.begun_stays (coherent.begun_of_unit (same ▸ present))
  | spawns there asked fresh begun => exact begun ▸ trivial
  | starts spawned =>
      exact step.begun_stays
        (coherent.begun_of_unit fun absent => nomatch spawned.symm.trans absent)
  | delivers there waiting =>
      exact step.begun_stays
        (coherent.begun_of_unit fun absent => nomatch waiting.symm.trans absent)
  | abandons there waiting =>
      exact step.begun_stays
        (coherent.begun_of_unit fun absent => nomatch waiting.symm.trans absent)

theorem work_unit_of_begun (coherent : Coherent plan now) (step : Work plan now later)
    {place : Backend.Place} {settings : FederationSettings} {members : List (Respondent Answer)}
    {index : Nat} (there : plan.root.at? place = some (.federation settings members))
    (begun : (later.requests place).HasBegun) (inside : index < members.length) :
    later.units place index ≠ .absent := by
  by_cases before : (now.requests place).HasBegun
  · exact coherent.present_stays step (coherent.unit_of_begun there before inside)
  · cases step.phaseChange place with
    | unchanged same => exact absurd (same ▸ begun) before
    | starts same asked fresh starts spawned =>
        cases there.symm.trans same
        rw [spawned settings members rfl index inside]
        exact fun absent => nomatch absent
    | takes _ collecting => exact absurd (collecting ▸ trivial) before
    | ends begunBefore => exact absurd begunBefore before
    | drops isMember withdrawn dropped =>
        rw [dropped] at begun
        cases phase : now.requests place with
        | unstarted => exact absurd begun (phase ▸ id)
        | skipped => exact absurd begun (phase ▸ id)
        | _ => exact absurd (phase ▸ trivial) before

theorem work_unit_of_request (coherent : Coherent plan now) (step : Work plan now later)
    {place : Backend.Place} {index : Nat}
    (started : later.requests (place ++ [index]) ≠ .unstarted) :
    later.units place index = .waiting ∨
      exists outcome, later.units place index = .reported outcome := by
  by_cases fresh : now.requests (place ++ [index]) = .unstarted
  · cases step.phaseChange (place ++ [index]) with
    | unchanged same => exact absurd (same.trans fresh) started
    | starts there asked =>
        rcases asked with isRoot | ⟨above, unit, isMember, waiting⟩
        · cases place <;> cases isRoot
        · rcases List.append_inj' isMember rfl with ⟨rfl, same⟩
          cases same
          exact coherent.unit_stays step (Or.inl waiting)
    | takes there collecting => cases fresh.symm.trans collecting
    | ends begun => exact absurd begun (fresh ▸ id)
    | drops isMember withdrawn dropped reported =>
        rcases List.append_inj' isMember rfl with ⟨rfl, same⟩
        cases same
        exact Or.inr ⟨_, reported⟩
  · exact coherent.unit_stays step (coherent.unit_of_request fresh)

theorem work_over_of_reported (coherent : Coherent plan now) (step : Work plan now later)
    {place : Backend.Place} {index : Nat} {outcome : Except Fault Answer}
    (reported : later.units place index = .reported outcome) :
    (later.requests (place ++ [index])).IsOver := by
  cases step.unitChange place index with
  | unchanged same =>
      have isOver := coherent.over_of_reported (same.symm.trans reported)
      rw [step.over_stays isOver]
      exact isOver
  | spawns there asked fresh begun spawned =>
      rw [spawned] at reported
      split at reported <;> cases reported
  | starts spawned waits => cases waits.symm.trans reported
  | delivers there waiting ended =>
      have isOver : (now.requests (place ++ [index])).IsOver := ended ▸ trivial
      rw [step.over_stays isOver]
      exact isOver
  | abandons there waiting withdrawn dropped =>
      rw [dropped]
      exact RequestPhase.afterDrop_isOver _

theorem work_reported_of_taken (coherent : Coherent plan now) (step : Work plan now later)
    {place : Backend.Place} {index : Nat} {outcome : Except Fault Answer}
    (taken : (later.taken place)[index]? = some outcome) :
    later.units place index = .reported outcome := by
  apply coherent.reported_stays step
  rcases step.taken_cases taken with before | ⟨delivered, _, _⟩
  · exact coherent.reported_of_taken before
  · exact delivered

theorem work_collected (coherent : Coherent plan now) (step : Work plan now later)
    {place : Backend.Place} {merged : Option Answer} {lastFault : Option Fault}
    (collecting : later.requests place = .collecting merged lastFault) :
    exists settings members, plan.root.at? place = some (.federation settings members) ∧
      Verdict.merging (plan.request.merge settings.window) (later.taken place) = .ok merged ∧
      lastFault = (Verdict.faults (later.taken place)).getLast? := by
  cases step.phaseChange place with
  | unchanged same sameTaken =>
      rw [sameTaken]
      exact coherent.collected (same.symm.trans collecting)
  | @starts respondent there asked fresh begun spawned sameTaken =>
      cases respondent with
      | leaf script => cases begun.symm.trans collecting
      | federation settings members =>
          cases begun.symm.trans collecting
          rw [sameTaken, coherent.taken_of_fresh (fresh ▸ id)]
          exact ⟨settings, members, there, rfl, rfl⟩
  | takes there before extended collects oneMore =>
      rcases coherent.collected before with ⟨_, _, same, soFar, last⟩
      cases there.symm.trans same
      cases collects.symm.trans collecting
      refine ⟨_, _, there, ?_, ?_⟩
      · rw [oneMore, Verdict.merging_concat, soFar]
        exact extended
      · rw [oneMore, Verdict.faults_concat_getLast?, last]
  | ends begun pending ended => cases ended.symm.trans collecting
  | drops isMember withdrawn dropped =>
      have isOver := RequestPhase.afterDrop_isOver (now.requests place)
      rw [← dropped, collecting] at isOver
      exact absurd isOver id

theorem work_asleep (coherent : Coherent plan now) (step : Work plan now later)
    {place : Backend.Place} (asleep : later.requests place = .sleeping) :
    exists script, plan.root.at? place = some (.leaf script) := by
  cases step.phaseChange place with
  | unchanged same => exact coherent.asleep (same.symm.trans asleep)
  | @starts respondent there asked fresh begun =>
      cases respondent with
      | leaf script => exact ⟨script, there⟩
      | federation settings members => cases begun.symm.trans asleep
  | takes there collecting extended collects => cases collects.symm.trans asleep
  | ends begun pending ended => cases ended.symm.trans asleep
  | drops isMember withdrawn dropped =>
      have isOver := RequestPhase.afterDrop_isOver (now.requests place)
      rw [← dropped, asleep] at isOver
      exact absurd isOver id

theorem work_withdrawn_of_dropped (coherent : Coherent plan now) (step : Work plan now later)
    {place : Backend.Place}
    (dropped : later.requests place = .dropped ∨ later.requests place = .skipped) :
    place ≠ [] ∧ later.IsWithdrawn place := by
  cases step.phaseChange place with
  | unchanged same =>
      rw [same] at dropped
      rcases coherent.withdrawn_of_dropped dropped with ⟨notRoot, withdrawn⟩
      exact ⟨notRoot, step.withdrawn_stays withdrawn⟩
  | @starts respondent there asked fresh begun =>
      rw [begun] at dropped
      cases respondent <;> rcases dropped with impossible | impossible <;> cases impossible
  | takes there collecting extended collects =>
      rw [collects] at dropped
      rcases dropped with impossible | impossible <;> cases impossible
  | ends begun pending ended =>
      rw [ended] at dropped
      rcases dropped with impossible | impossible <;> cases impossible
  | drops isMember withdrawn =>
      refine ⟨?_, step.withdrawn_stays withdrawn⟩
      rw [isMember]
      exact List.append_ne_nil_of_right_ne_nil _ (List.cons_ne_nil _ _)

theorem work_ended_le (coherent : Coherent plan now) (step : Work plan now later)
    {place : Backend.Place} {millis : Nat} {ending : Ending Answer}
    (ended : later.requests place = .ended millis ending) : millis ≤ later.millis := by
  rw [step.sameMillis]
  by_cases pending : (now.requests place).IsOver
  · exact coherent.ended_le ((step.over_stays pending).symm.trans ended)
  · exact Nat.le_of_eq (step.ended_now pending ended)

/-- A step of work keeps a situation coherent. -/
theorem work (coherent : Coherent plan now) (step : Work plan now later) : Coherent plan later where
  federation_of_unit := coherent.work_federation_of_unit step
  begun_of_unit := coherent.work_begun_of_unit step
  unit_of_begun := coherent.work_unit_of_begun step
  unit_of_request := coherent.work_unit_of_request step
  over_of_reported := coherent.work_over_of_reported step
  reported_of_taken := coherent.work_reported_of_taken step
  collected := coherent.work_collected step
  asleep := coherent.work_asleep step
  withdrawn_of_dropped := coherent.work_withdrawn_of_dropped step
  ended_le := coherent.work_ended_le step

/-- The time that passes keeps a situation coherent. -/
theorem pass (coherent : Coherent plan now) :
    Coherent plan { now with millis := now.millis + 1 } where
  federation_of_unit := coherent.federation_of_unit
  begun_of_unit := coherent.begun_of_unit
  unit_of_begun := coherent.unit_of_begun
  unit_of_request := coherent.unit_of_request
  over_of_reported := coherent.over_of_reported
  reported_of_taken := coherent.reported_of_taken
  collected := coherent.collected
  asleep := coherent.asleep
  withdrawn_of_dropped := coherent.withdrawn_of_dropped
  ended_le := fun ended => Nat.le_succ_of_le (coherent.ended_le ended)

end Coherent

end Schedule
end QueryFederation
