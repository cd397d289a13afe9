import Mathlib.Data.List.Induction
import QueryFederation.Proofs.Schedule.Progress

/-!
# Requests that nobody has withdrawn

As long as a request stands, nothing but the tree decides what becomes of it.  When it ends, it ends as
its respondent does and at its time, and until then that time has not passed.  What a federation has
taken it took while it stood, so the outcomes and the times of its first members were right then; this
remains true when it is withdrawn later.

The time is the harder half.  It must not pass while a request is due, so a situation in which nobody
can do anything has to be one in which every request that stands waits for a timer below it.
-/

namespace QueryFederation
namespace Schedule

variable {Answer : Type} {plan : Plan Answer} {now later : Situation Answer}

/-! ## When a request stands -/

namespace Situation

theorem isWithdrawn_nil_iff (situation : Situation Answer) :
    situation.IsWithdrawn [] <-> situation.isCancelled = true := by
  constructor
  · intro withdrawn
    rcases withdrawn with cancelled | ⟨above, isPrefix, different, _⟩
    · exact cancelled
    · exact absurd (List.prefix_nil.mp isPrefix) different
  · exact Or.inl

/-- A request to a member stands as long as that of its federation stands and is not over. -/
theorem isWithdrawn_concat_iff (situation : Situation Answer) (place : Backend.Place) (index : Nat) :
    situation.IsWithdrawn (place ++ [index]) <->
      situation.IsWithdrawn place ∨ (situation.requests place).IsOver := by
  constructor
  · intro withdrawn
    rcases withdrawn with cancelled | ⟨above, isPrefix, different, isOver⟩
    · exact Or.inl (Or.inl cancelled)
    · rcases List.prefix_concat_iff.mp isPrefix with same | shorter
      · exact absurd same different
      · by_cases same : above = place
        · exact Or.inr (same ▸ isOver)
        · exact Or.inl (Or.inr ⟨above, shorter, same, isOver⟩)
  · intro cause
    rcases cause with (cancelled | ⟨above, isPrefix, different, isOver⟩) | isOver
    · exact Or.inl cancelled
    · refine Or.inr ⟨above, isPrefix.trans (List.prefix_append _ _), ?_, isOver⟩
      intro same
      have longer := List.IsPrefix.length_le isPrefix
      rw [same, List.length_append] at longer
      exact absurd longer (Nat.not_succ_le_self _)
    · refine Or.inr ⟨place, List.prefix_append _ _, ?_, isOver⟩
      intro same
      exact List.cons_ne_nil index [] (List.self_eq_append_right.mp same)

end Situation

/-! ## What a federation has taken -/

/-- Whether a federation has taken the right outcomes, and only from members that were due. -/
def TookInOrder (plan : Plan Answer) (now : Situation Answer) (place : Backend.Place) : Prop :=
  forall (index : Nat) (outcome : Except Fault Answer) (member : Respondent Answer),
    (now.taken place)[index]? = some outcome -> plan.root.at? (place ++ [index]) = some member ->
      outcome = (member.ending plan.request).outcome index ∧
        member.finishMillis plan.request ≤ now.millis

/-- The respondent at an index of a federation. -/
theorem at?_member {root : Respondent Answer} {place : Backend.Place}
    {settings : FederationSettings} {members : List (Respondent Answer)}
    (there : root.at? place = some (.federation settings members)) (index : Nat) :
    root.at? (place ++ [index]) = members[index]? := by
  rw [Respondent.at?_concat, there]

namespace TookInOrder

variable {place : Backend.Place} {settings : FederationSettings}
  {members : List (Respondent Answer)}

/-- What has been taken is the outcomes of the first members. -/
theorem eq_take (inOrder : TookInOrder plan now place)
    (there : plan.root.at? place = some (.federation settings members))
    (notTooMany : (now.taken place).length ≤ members.length) :
    now.taken place =
      (Respondent.outcomes plan.request members).take (now.taken place).length := by
  apply List.ext_getElem?
  intro index
  by_cases inside : index < (now.taken place).length
  · have isMember : members[index]? = some members[index] := List.getElem?_eq_getElem (by omega)
    have took := List.getElem?_eq_getElem inside
    have same := (inOrder _ _ _ took ((at?_member there index).trans isMember)).1
    rw [List.getElem?_take_of_lt inside, Respondent.outcomes_getElem?, isMember, took, same]
    rfl
  · rw [List.getElem?_eq_none (Nat.le_of_not_lt inside), List.getElem?_take, if_neg inside]

/-- Members whose outcomes have been taken were due. -/
theorem delay_le (inOrder : TookInOrder plan now place)
    (there : plan.root.at? place = some (.federation settings members)) {delay : Nat}
    (early : delay ∈ (Respondent.finishes plan.request members).take (now.taken place).length) :
    delay ≤ now.millis := by
  rcases List.mem_take_iff_getElem.mp early with ⟨index, inside, same⟩
  rw [Respondent.finishes_eq_map, List.length_map] at inside
  rcases Nat.lt_min.mp inside with ⟨before, isMember⟩
  have took := List.getElem?_eq_getElem before
  have due := (inOrder _ _ _ took ((at?_member there index).trans (List.getElem?_eq_getElem isMember))).2
  rw [← same]
  simpa only [Respondent.finishes_eq_map, List.getElem_map] using due

/-- A federation that has taken as many outcomes as it consults was due. -/
theorem finishMillis_le (inOrder : TookInOrder plan now place)
    (there : plan.root.at? place = some (.federation settings members))
    (enough : Verdict.consulted (plan.request.merge settings.window)
      (Respondent.outcomes plan.request members) ≤ (now.taken place).length) :
    (Respondent.federation settings members).finishMillis plan.request ≤ now.millis := by
  rw [Respondent.finishMillis, Verdict.delayMillis, Verdict.foldr_max_le_iff]
  intro delay consulted
  exact inOrder.delay_le there (List.take_subset_take_left _ enough consulted)

/-- A federation that has taken all outcomes has the verdict of all outcomes, and was due. -/
theorem verdict_of_whole (inOrder : TookInOrder plan now place)
    (there : plan.root.at? place = some (.federation settings members))
    {merged : Option Answer} {lastFault : Option Fault}
    (soFar : Verdict.merging (plan.request.merge settings.window) (now.taken place) = .ok merged)
    (last : lastFault = (Verdict.faults (now.taken place)).getLast?)
    (finished : (now.taken place).length = members.length) :
    Ending.returned (conclusion plan.request.empty merged lastFault) =
        (Respondent.federation settings members).ending plan.request ∧
      (Respondent.federation settings members).finishMillis plan.request ≤ now.millis := by
  have all : now.taken place = Respondent.outcomes plan.request members := by
    rw [inOrder.eq_take there (Nat.le_of_eq finished), finished,
      ← Respondent.outcomes_length plan.request members, List.take_length]
  constructor
  · rw [Respondent.ending]
    change _ = Ending.returned (Verdict.ofOutcomes _ _ (Respondent.outcomes plan.request members))
    rw [← all, Verdict.ofOutcomes, soFar, ← last]
    cases merged with
    | some answer => rfl
    | none => cases lastFault <;> rfl
  · apply inOrder.finishMillis_le there
    rw [finished, ← Respondent.outcomes_length plan.request members]
    exact Verdict.consulted_le _ _

/-- A federation that has taken an outcome at which the merge fails has the fault of that merge as its
verdict, and was due. -/
theorem verdict_of_broken (inOrder : TookInOrder plan now place)
    (there : plan.root.at? place = some (.federation settings members))
    {before : List (Except Fault Answer)} {outcome : Except Fault Answer} {merged : Option Answer}
    {fault : Fault} (taken : now.taken place = before ++ [outcome])
    (soFar : Verdict.merging (plan.request.merge settings.window) before = .ok merged)
    (failed : Verdict.extend (plan.request.merge settings.window) merged outcome = .error fault)
    (notTooMany : (now.taken place).length ≤ members.length) :
    Ending.returned (.error fault) =
        (Respondent.federation settings members).ending plan.request ∧
      (Respondent.federation settings members).finishMillis plan.request ≤ now.millis := by
  have count : (now.taken place).length = before.length + 1 := by
    rw [taken, List.length_append, List.length_singleton]
  have upTo := inOrder.eq_take there notTooMany
  rw [count] at upTo
  have broken : Verdict.merging (plan.request.merge settings.window)
      ((Respondent.outcomes plan.request members).take (before.length + 1)) = .error fault := by
    rw [← upTo, taken, Verdict.merging_concat, soFar]
    exact failed
  have short : (Respondent.outcomes plan.request members).take before.length = before := by
    have shorter := congrArg (List.take before.length) upTo
    rw [taken, List.take_left, List.take_take, Nat.min_eq_left (Nat.le_succ _)] at shorter
    exact shorter.symm
  constructor
  · rw [Respondent.ending]
    change _ = Ending.returned (Verdict.ofOutcomes _ _ (Respondent.outcomes plan.request members))
    rw [← List.take_append_drop (before.length + 1) (Respondent.outcomes plan.request members)]
    rw [Verdict.ofOutcomes_of_error _ _ (Verdict.merging_append_of_error _ broken _)]
  · apply inOrder.finishMillis_le there
    rw [count]
    apply Nat.le_of_eq
    apply Verdict.consulted_eq_of_breaks
    · rw [Respondent.outcomes_length]
      omega
    · rw [short]
      exact (Verdict.breaks_eq_false_iff _ _).mpr ⟨merged, soFar⟩
    · exact (Verdict.breaks_eq_true_iff _ _).mpr ⟨fault, broken⟩

/-- A federation is not done before a member that it still has to ask for. -/
theorem member_finish_le (inOrder : TookInOrder plan now place)
    (there : plan.root.at? place = some (.federation settings members)) {merged : Option Answer}
    (soFar : Verdict.merging (plan.request.merge settings.window) (now.taken place) = .ok merged)
    {member : Respondent Answer} (isNext : members[(now.taken place).length]? = some member) :
    member.finishMillis plan.request ≤
      (Respondent.federation settings members).finishMillis plan.request := by
  rcases List.getElem?_eq_some_iff.mp isNext with ⟨inside, same⟩
  have consulted : (now.taken place).length < Verdict.consulted
      (plan.request.merge settings.window) (Respondent.outcomes plan.request members) := by
    apply Verdict.lt_consulted
    · rwa [Respondent.outcomes_length]
    · rw [← inOrder.eq_take there (Nat.le_of_lt inside)]
      exact (Verdict.breaks_eq_false_iff _ _).mpr ⟨merged, soFar⟩
  rw [Respondent.finishMillis, Verdict.delayMillis]
  apply (Verdict.foldr_max_le_iff _ _).mp (Nat.le_refl _)
  apply List.mem_take_iff_getElem.mpr
  refine ⟨(now.taken place).length, Nat.lt_min.mpr ⟨consulted, ?_⟩, ?_⟩
  · rwa [Respondent.finishes_eq_map, List.length_map]
  · simp only [Respondent.finishes_eq_map, List.getElem_map, same]

end TookInOrder

/-! ## The invariant -/

/-- What is true of the requests that stand, and of what has been taken while they stood. -/
structure Sound (plan : Plan Answer) (now : Situation Answer) : Prop where
  ended : forall {place : Backend.Place} {millis : Nat} {ending : Ending Answer}
    {respondent : Respondent Answer}, ¬ now.IsWithdrawn place ->
      now.requests place = .ended millis ending -> plan.root.at? place = some respondent ->
        ending = respondent.ending plan.request ∧ millis = respondent.finishMillis plan.request
  reported : forall {place : Backend.Place} {index : Nat} {outcome : Except Fault Answer},
    ¬ now.IsWithdrawn (place ++ [index]) -> now.units place index = .reported outcome ->
      exists millis ending, now.requests (place ++ [index]) = .ended millis ending ∧
        outcome = ending.outcome index
  inOrder : forall place : Backend.Place, TookInOrder plan now place
  inTime : forall {place : Backend.Place} {respondent : Respondent Answer},
    ¬ now.IsWithdrawn place -> plan.root.at? place = some respondent ->
      ¬ (now.requests place).IsOver -> now.millis ≤ respondent.finishMillis plan.request

theorem sound_start (plan : Plan Answer) : Sound plan (Situation.start plan.cancel) where
  ended := fun _ ended => nomatch ended
  reported := fun _ reported => nomatch reported
  inOrder := fun _ _ _ _ taken => nomatch taken
  inTime := fun _ _ _ => Nat.zero_le _

/-! ## Situations in which nobody can do anything -/

/-- The unit of a member whose request stands and is over has its report ready. -/
theorem unitDelivers_of_over (coherent : Coherent plan now) {place : Backend.Place} {index : Nat}
    {settings : FederationSettings} {members : List (Respondent Answer)}
    (there : plan.root.at? place = some (.federation settings members))
    (waiting : now.units place index = .waiting)
    (standing : ¬ now.IsWithdrawn (place ++ [index]))
    (isOver : (now.requests (place ++ [index])).IsOver) : exists later, Work plan now later := by
  cases phase : now.requests (place ++ [index]) with
  | unstarted => exact absurd isOver (phase ▸ id)
  | sleeping => exact absurd isOver (phase ▸ id)
  | collecting merged lastFault => exact absurd isOver (phase ▸ id)
  | ended millis ending => exact ⟨_, .unitDelivers there waiting phase standing⟩
  | dropped => exact absurd (coherent.withdrawn_of_dropped (Or.inl phase)).2 standing
  | skipped => exact absurd (coherent.withdrawn_of_dropped (Or.inr phase)).2 standing

/-- A federation that stands and collects can take what has been delivered. -/
theorem takes_of_delivered {place : Backend.Place} {settings : FederationSettings}
    {members : List (Respondent Answer)} {merged : Option Answer} {lastFault : Option Fault}
    {outcome : Except Fault Answer}
    (there : plan.root.at? place = some (.federation settings members))
    (collecting : now.requests place = .collecting merged lastFault)
    (standing : ¬ now.IsWithdrawn place)
    (delivered : now.units place (now.taken place).length = .reported outcome) :
    exists later, Work plan now later := by
  cases extended : Verdict.extend (plan.request.merge settings.window) merged outcome with
  | ok next => exact ⟨_, .takes there collecting standing delivered extended⟩
  | error fault => exact ⟨_, .mergeFails there collecting standing delivered extended⟩

/-- A request that is asked for has begun when nobody can do anything. -/
theorem started_of_quiet (quiet : IsQuiet plan now) {place : Backend.Place}
    {respondent : Respondent Answer} (there : plan.root.at? place = some respondent)
    (asked : now.IsAsked place) : now.requests place ≠ .unstarted := by
  intro fresh
  cases respondent with
  | leaf script => exact quiet _ (.startLeaf there asked fresh)
  | federation settings members => exact quiet _ (.startFederation there asked fresh)

/-- When nobody can do anything, a request that stands waits for a timer that is still to come. -/
theorem lt_finish_of_quiet (coherent : Coherent plan now) (sound : Sound plan now)
    (quiet : IsQuiet plan now) {place : Backend.Place} {respondent : Respondent Answer}
    (there : plan.root.at? place = some respondent) (standing : ¬ now.IsWithdrawn place)
    (asked : now.IsAsked place) (pending : ¬ (now.requests place).IsOver) :
    now.millis < respondent.finishMillis plan.request := by
  cases phase : now.requests place with
  | unstarted => exact absurd phase (started_of_quiet quiet there asked)
  | ended millis ending => exact absurd (phase ▸ trivial) pending
  | dropped => exact absurd (phase ▸ trivial) pending
  | skipped => exact absurd (phase ▸ trivial) pending
  | sleeping =>
      rcases coherent.asleep phase with ⟨script, isLeaf⟩
      cases there.symm.trans isLeaf
      by_contra late
      exact quiet _ (.leafEnds there phase (Nat.le_of_not_lt late))
  | collecting merged lastFault =>
      rcases coherent.collected phase with ⟨settings, members, isFederation, soFar, _⟩
      have same : respondent = .federation settings members :=
        Option.some.inj (there.symm.trans isFederation)
      rcases Nat.lt_or_eq_of_le (coherent.taken_length_le isFederation) with inside | finished
      · have isNext := List.getElem?_eq_getElem inside
        have below := (at?_member isFederation (now.taken place).length).trans isNext
        have memberStands : ¬ now.IsWithdrawn (place ++ [(now.taken place).length]) := by
          rw [Situation.isWithdrawn_concat_iff]
          exact fun cause => cause.elim standing pending
        cases unit : now.units place (now.taken place).length with
        | absent => exact absurd unit (coherent.unit_of_begun isFederation (phase ▸ trivial) inside)
        | spawned => exact absurd (.startUnit unit) (quiet _)
        | reported outcome =>
            rcases takes_of_delivered isFederation phase standing unit with ⟨later, step⟩
            exact absurd step (quiet later)
        | waiting =>
            have memberPending :
                ¬ (now.requests (place ++ [(now.taken place).length])).IsOver := by
              intro isOver
              rcases unitDelivers_of_over coherent isFederation unit memberStands isOver with
                  ⟨later, step⟩
              exact quiet later step
            have smaller : sizeOf members[(now.taken place).length] < sizeOf respondent := by
              have isMember := List.sizeOf_lt_of_mem (List.getElem_mem inside)
              rw [same, Respondent.federation.sizeOf_spec]
              omega
            have memberWaits := lt_finish_of_quiet coherent sound quiet below memberStands
              (Or.inr ⟨place, _, rfl, unit⟩) memberPending
            have notBefore := (sound.inOrder place).member_finish_le isFederation soFar isNext
            rw [same]
            exact Nat.lt_of_lt_of_le memberWaits notBefore
      · exact absurd (.concludes isFederation phase finished) (quiet _)
termination_by sizeOf respondent

/-- When nobody can do anything, every request that stands and is not over has been asked for. -/
theorem asked_of_quiet (coherent : Coherent plan now) (quiet : IsQuiet plan now)
    (place : Backend.Place) {respondent : Respondent Answer}
    (there : plan.root.at? place = some respondent) (standing : ¬ now.IsWithdrawn place)
    (pending : ¬ (now.requests place).IsOver) : now.IsAsked place := by
  induction place using List.reverseRecOn generalizing respondent with
  | nil => exact Or.inl rfl
  | append_singleton above index inductionHypothesis =>
      right
      refine ⟨above, index, rfl, ?_⟩
      rw [Situation.isWithdrawn_concat_iff, not_or] at standing
      rw [Respondent.at?_concat] at there
      cases federation : plan.root.at? above with
      | none =>
          rw [federation] at there
          cases there
      | some parent =>
          rw [federation] at there
          cases parent with
          | leaf script => cases there
          | federation settings members =>
              have asked := inductionHypothesis federation standing.1 standing.2
              have begun : (now.requests above).HasBegun := by
                have started := started_of_quiet quiet federation asked
                cases phase : now.requests above with
                | unstarted => exact absurd phase started
                | skipped => exact absurd (phase ▸ trivial) standing.2
                | _ => exact trivial
              rcases List.getElem?_eq_some_iff.mp there with ⟨inside, _⟩
              cases unit : now.units above index with
              | absent => exact absurd unit (coherent.unit_of_begun federation begun inside)
              | spawned => exact absurd (.startUnit unit) (quiet _)
              | waiting => rfl
              | reported outcome => exact absurd (coherent.over_of_reported unit) pending

/-! ## Every step keeps the invariant -/

namespace Sound

/-- What lies in the mailbox of a federation that stands is right, and was due. -/
theorem delivered (coherent : Coherent plan now) (sound : Sound plan now) {place : Backend.Place}
    {index : Nat} {outcome : Except Fault Answer} {member : Respondent Answer}
    (standing : ¬ now.IsWithdrawn place) (pending : ¬ (now.requests place).IsOver)
    (reported : now.units place index = .reported outcome)
    (isMember : plan.root.at? (place ++ [index]) = some member) :
    outcome = (member.ending plan.request).outcome index ∧
      member.finishMillis plan.request ≤ now.millis := by
  have memberStands : ¬ now.IsWithdrawn (place ++ [index]) := by
    rw [Situation.isWithdrawn_concat_iff]
    exact fun cause => cause.elim standing pending
  rcases sound.reported memberStands reported with ⟨millis, ending, ended, same⟩
  rcases sound.ended memberStands ended isMember with ⟨sameEnding, sameMillis⟩
  constructor
  · rw [same, sameEnding]
  · rw [← sameMillis]
    exact coherent.ended_le ended

theorem work_inOrder (coherent : Coherent plan now) (sound : Sound plan now)
    (step : Work plan now later) (place : Backend.Place) : TookInOrder plan later place := by
  intro index outcome member took isMember
  rw [step.sameMillis]
  rcases step.taken_cases took with before | ⟨lies, standing, pending⟩
  · exact sound.inOrder place index outcome member before isMember
  · exact sound.delivered coherent standing pending lies isMember

theorem work_ended (coherent : Coherent plan now) (sound : Sound plan now)
    (step : Work plan now later) {place : Backend.Place} {millis : Nat} {ending : Ending Answer}
    {respondent : Respondent Answer} (standing : ¬ later.IsWithdrawn place)
    (ended : later.requests place = .ended millis ending)
    (there : plan.root.at? place = some respondent) :
    ending = respondent.ending plan.request ∧ millis = respondent.finishMillis plan.request := by
  have stood : ¬ now.IsWithdrawn place := mt step.withdrawn_stays standing
  cases step.requestChange place with
  | unchanged same => exact sound.ended stood (same.symm.trans ended) there
  | starts isThere asked fresh begun =>
      cases there.symm.trans isThere
      cases respondent <;> cases begun.symm.trans ended
  | leafEnds isLeaf asleep due isOver =>
      cases there.symm.trans isLeaf
      cases isOver.symm.trans ended
      exact ⟨rfl, Nat.le_antisymm (sound.inTime stood there (asleep ▸ id)) due⟩
  | leafYields isLeaf asleep withdrawn => exact absurd withdrawn stood
  | takes isThere collecting stands lies extended collects => cases collects.symm.trans ended
  | mergeFails isFederation collecting stands lies failed isOver oneMore =>
      cases there.symm.trans isFederation
      cases isOver.symm.trans ended
      rcases coherent.collected collecting with ⟨_, _, same, soFar, _⟩
      cases there.symm.trans same
      have verdict := (sound.work_inOrder coherent step place).verdict_of_broken there oneMore soFar
        failed ((coherent.work step).taken_length_le there)
      rw [step.sameMillis] at verdict
      exact ⟨verdict.1,
        Nat.le_antisymm (sound.inTime stood there (collecting ▸ id)) verdict.2⟩
  | withdraws isFederation collecting unfinished withdrawn => exact absurd withdrawn stood
  | concludes isFederation collecting finished isOver =>
      cases there.symm.trans isFederation
      cases isOver.symm.trans ended
      rcases coherent.collected collecting with ⟨_, _, same, soFar, last⟩
      cases there.symm.trans same
      have verdict := (sound.inOrder place).verdict_of_whole there soFar last finished
      exact ⟨verdict.1,
        Nat.le_antisymm (sound.inTime stood there (collecting ▸ id)) verdict.2⟩
  | drops isMember waiting withdrawn => exact absurd withdrawn stood

theorem work_reported (sound : Sound plan now) (step : Work plan now later)
    {place : Backend.Place} {index : Nat} {outcome : Except Fault Answer}
    (standing : ¬ later.IsWithdrawn (place ++ [index]))
    (reported : later.units place index = .reported outcome) :
    exists millis ending, later.requests (place ++ [index]) = .ended millis ending ∧
      outcome = ending.outcome index := by
  have stood : ¬ now.IsWithdrawn (place ++ [index]) := mt step.withdrawn_stays standing
  cases step.unitChange place index with
  | unchanged same =>
      rcases sound.reported stood (same.symm.trans reported) with
          ⟨millis, ending, ended, sameOutcome⟩
      exact ⟨millis, ending, (step.over_stays (ended ▸ trivial)).trans ended, sameOutcome⟩
  | spawns there asked fresh begun spawned =>
      rw [spawned] at reported
      split at reported <;> cases reported
  | starts spawned waits => cases waits.symm.trans reported
  | delivers there waiting ended stands delivered =>
      cases delivered.symm.trans reported
      exact ⟨_, _, (step.over_stays (ended ▸ trivial)).trans ended, rfl⟩
  | abandons there waiting withdrawn => exact absurd withdrawn stood

/-- A step of work keeps the requests that stand sound. -/
theorem work (coherent : Coherent plan now) (sound : Sound plan now) (step : Work plan now later) :
    Sound plan later where
  ended := sound.work_ended coherent step
  reported := sound.work_reported step
  inOrder := sound.work_inOrder coherent step
  inTime := by
    intro place respondent standing there pending
    rw [step.sameMillis]
    exact sound.inTime (mt step.withdrawn_stays standing) there (step.pending_before pending)

/-- The time passes only while every request that stands waits for a later timer. -/
theorem pass (coherent : Coherent plan now) (sound : Sound plan now) (quiet : IsQuiet plan now) :
    Sound plan { now with millis := now.millis + 1 } where
  ended := sound.ended
  reported := sound.reported
  inOrder := by
    intro place index outcome member took isMember
    rcases sound.inOrder place index outcome member took isMember with ⟨same, due⟩
    exact ⟨same, Nat.le_succ_of_le due⟩
  inTime := by
    intro place respondent standing there pending
    have asked := asked_of_quiet coherent quiet place there standing pending
    exact lt_finish_of_quiet coherent sound quiet there standing asked pending

end Sound

theorem Reachable.sound (reachable : Reachable plan now) : Sound plan now := by
  apply reachable.invariant _ (sound_start plan)
  intro before after run sound step
  cases step with
  | work step => exact sound.work run.coherent step
  | pass quiet => exact sound.pass run.coherent quiet

end Schedule
end QueryFederation
