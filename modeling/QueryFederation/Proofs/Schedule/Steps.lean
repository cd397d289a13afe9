import Mathlib.Tactic.ByContra
import QueryFederation.Proofs.Schedule.Basic

/-!
# What one step changes

A step of work changes little: at most two requests, the units of one federation, and what one
federation has taken.  This file says for each request and for each unit what a step may do to it, with
everything that the step had to find first, and what it may report.  The invariants of a call are proved
from these lists.
-/

namespace QueryFederation
namespace Schedule

variable {Answer : Type} {plan : Plan Answer} {now later : Situation Answer}

namespace Situation

/-! ## What the effects of a step leave alone -/

variable (situation : Situation Answer) (place : Backend.Place)

theorem setRequest_requests (phase : RequestPhase Answer) (other : Backend.Place) :
    (situation.setRequest place phase).requests other =
      if other = place then phase else situation.requests other :=
  Function.update_apply situation.requests place phase other

theorem setUnit_units (index : Nat) (phase : UnitPhase Answer) (other : Backend.Place)
    (otherIndex : Nat) :
    (situation.setUnit place index phase).units other otherIndex =
      if other = place ∧ otherIndex = index then phase else situation.units other otherIndex := by
  unfold setUnit
  dsimp only
  rw [Function.update_apply]
  by_cases same : other = place
  · subst same
    rw [if_pos rfl, Function.update_apply]
    simp only [true_and]
  · rw [if_neg same, if_neg (fun both => same both.1)]

theorem fanOut_requests (size : Nat) (other : Backend.Place) :
    (situation.fanOut place size).requests other =
      if other = place then .collecting none none else situation.requests other :=
  Function.update_apply situation.requests place _ other

theorem fanOut_units (size : Nat) (other : Backend.Place) (index : Nat) :
    (situation.fanOut place size).units other index =
      if other = place then if index < size then .spawned else .absent
      else situation.units other index := by
  unfold fanOut
  dsimp only
  rw [Function.update_apply]
  by_cases same : other = place
  · rw [if_pos same, if_pos same]
  · rw [if_neg same, if_neg same]

theorem take_requests (outcome : Except Fault Answer) (phase : RequestPhase Answer)
    (other : Backend.Place) :
    (situation.take place outcome phase).requests other =
      if other = place then phase else situation.requests other :=
  situation.setRequest_requests place phase other

theorem take_taken (outcome : Except Fault Answer) (phase : RequestPhase Answer)
    (other : Backend.Place) :
    (situation.take place outcome phase).taken other =
      if other = place then situation.taken place ++ [outcome] else situation.taken other :=
  Function.update_apply situation.taken place _ other

theorem report_units (kind : ApiKind) (settings : FederationSettings) (index : Nat)
    (outcome : Except Fault Answer) (other : Backend.Place) (otherIndex : Nat) :
    (situation.report kind settings place index outcome).units other otherIndex =
      if other = place ∧ otherIndex = index then .reported outcome
      else situation.units other otherIndex :=
  situation.setUnit_units place index (.reported outcome) other otherIndex

end Situation

/-! ## Requests -/

/-- Whether a request has run at all. -/
def RequestPhase.HasBegun : RequestPhase Answer -> Prop
  | .unstarted => False
  | .skipped => False
  | _ => True

/-- How a request begins. -/
def firstPhase : Respondent Answer -> RequestPhase Answer
  | .leaf _ => .sleeping
  | .federation _ _ => .collecting none none

/-- What a step may do to the request at a place, and to what its federation has taken. -/
inductive RequestChange (plan : Plan Answer) (now later : Situation Answer)
    (place : Backend.Place) : Prop where
  | unchanged (same : later.requests place = now.requests place)
      (sameTaken : later.taken place = now.taken place)
  | starts {respondent : Respondent Answer} (there : plan.root.at? place = some respondent)
      (asked : now.IsAsked place) (fresh : now.requests place = .unstarted)
      (begun : later.requests place = firstPhase respondent)
      (spawned : forall settings members, respondent = .federation settings members ->
        forall index, index < members.length -> later.units place index = .spawned)
      (sameTaken : later.taken place = now.taken place)
  | leafEnds {script : Script Answer} (there : plan.root.at? place = some (.leaf script))
      (asleep : now.requests place = .sleeping) (due : script.delayMillis ≤ now.millis)
      (isOver : later.requests place = .ended now.millis script.ending)
      (sameTaken : later.taken place = now.taken place)
  | leafYields {script : Script Answer} (there : plan.root.at? place = some (.leaf script))
      (asleep : now.requests place = .sleeping) (withdrawn : now.IsWithdrawn place)
      (isOver : later.requests place = .ended now.millis (.returned (.error .cancelled)))
      (sameTaken : later.taken place = now.taken place)
  | takes {settings : FederationSettings} {members : List (Respondent Answer)}
      {merged next : Option Answer} {lastFault : Option Fault} {outcome : Except Fault Answer}
      (there : plan.root.at? place = some (.federation settings members))
      (collecting : now.requests place = .collecting merged lastFault)
      (standing : ¬ now.IsWithdrawn place)
      (delivered : now.units place (now.taken place).length = .reported outcome)
      (extended : Verdict.extend (plan.request.merge settings.window) merged outcome = .ok next)
      (collects : later.requests place =
        .collecting next (Verdict.lastFaultAfter lastFault outcome))
      (oneMore : later.taken place = now.taken place ++ [outcome])
  | mergeFails {settings : FederationSettings} {members : List (Respondent Answer)}
      {merged : Option Answer} {lastFault : Option Fault} {outcome : Except Fault Answer}
      {fault : Fault} (there : plan.root.at? place = some (.federation settings members))
      (collecting : now.requests place = .collecting merged lastFault)
      (standing : ¬ now.IsWithdrawn place)
      (delivered : now.units place (now.taken place).length = .reported outcome)
      (failed : Verdict.extend (plan.request.merge settings.window) merged outcome = .error fault)
      (isOver : later.requests place = .ended now.millis (.returned (.error fault)))
      (oneMore : later.taken place = now.taken place ++ [outcome])
  | withdraws {settings : FederationSettings} {members : List (Respondent Answer)}
      {merged : Option Answer} {lastFault : Option Fault}
      (there : plan.root.at? place = some (.federation settings members))
      (collecting : now.requests place = .collecting merged lastFault)
      (unfinished : (now.taken place).length < members.length)
      (withdrawn : now.IsWithdrawn place)
      (isOver : later.requests place = .ended now.millis (.returned (.error .cancelled)))
      (sameTaken : later.taken place = now.taken place)
  | concludes {settings : FederationSettings} {members : List (Respondent Answer)}
      {merged : Option Answer} {lastFault : Option Fault}
      (there : plan.root.at? place = some (.federation settings members))
      (collecting : now.requests place = .collecting merged lastFault)
      (finished : (now.taken place).length = members.length)
      (isOver : later.requests place =
        .ended now.millis (.returned (conclusion plan.request.empty merged lastFault)))
      (sameTaken : later.taken place = now.taken place)
  | drops {above : Backend.Place} {index : Nat} (isMember : place = above ++ [index])
      (waiting : now.units above index = .waiting) (withdrawn : now.IsWithdrawn place)
      (dropped : later.requests place = Situation.afterDrop (now.requests place))
      (reported : later.units above index = .reported (.error .cancelled))
      (sameTaken : later.taken place = now.taken place)

theorem Work.requestChange (step : Work plan now later) (place : Backend.Place) :
    RequestChange plan now later place := by
  cases step with
  | @startLeaf at' script there asked fresh =>
      by_cases same : place = at'
      · subst same
        exact .starts there asked fresh ((now.setRequest_requests _ _ _).trans (if_pos rfl))
          (fun settings members isFederation => nomatch isFederation) rfl
      · exact .unchanged ((now.setRequest_requests _ _ _).trans (if_neg same)) rfl
  | @startFederation at' settings members there asked fresh =>
      by_cases same : place = at'
      · subst same
        refine .starts there asked fresh ((now.fanOut_requests _ _ _).trans (if_pos rfl)) ?_ rfl
        intro otherSettings otherMembers isFederation index inside
        cases isFederation
        rw [now.fanOut_units, if_pos rfl, if_pos inside]
      · exact .unchanged ((now.fanOut_requests _ _ _).trans (if_neg same)) rfl
  | startUnit spawned => exact .unchanged rfl rfl
  | @leafEnds at' script there asleep due =>
      by_cases same : place = at'
      · subst same
        exact .leafEnds there asleep due ((now.setRequest_requests _ _ _).trans (if_pos rfl)) rfl
      · exact .unchanged ((now.setRequest_requests _ _ _).trans (if_neg same)) rfl
  | @leafYields at' script there asleep heeds withdrawn =>
      by_cases same : place = at'
      · subst same
        exact .leafYields there asleep withdrawn
          ((now.setRequest_requests _ _ _).trans (if_pos rfl)) rfl
      · exact .unchanged ((now.setRequest_requests _ _ _).trans (if_neg same)) rfl
  | unitDelivers there waiting ended standing => exact .unchanged rfl rfl
  | @unitAbandons above settings members index there waiting withdrawn =>
      by_cases same : place = above ++ [index]
      · subst same
        exact .drops rfl waiting withdrawn ((now.setRequest_requests _ _ _).trans (if_pos rfl))
          ((Situation.report_units _ _ _ _ _ _ _ _).trans (if_pos ⟨rfl, rfl⟩)) rfl
      · exact .unchanged ((now.setRequest_requests _ _ _).trans (if_neg same)) rfl
  | @takes at' settings members merged next lastFault outcome there collecting standing delivered
      extended =>
      by_cases same : place = at'
      · subst same
        exact .takes there collecting standing delivered extended
          ((now.take_requests _ _ _ _).trans (if_pos rfl))
          ((now.take_taken _ _ _ _).trans (if_pos rfl))
      · exact .unchanged ((now.take_requests _ _ _ _).trans (if_neg same))
          ((now.take_taken _ _ _ _).trans (if_neg same))
  | @mergeFails at' settings members merged lastFault outcome fault there collecting standing
      delivered failed =>
      by_cases same : place = at'
      · subst same
        exact .mergeFails there collecting standing delivered failed
          ((now.take_requests _ _ _ _).trans (if_pos rfl))
          ((now.take_taken _ _ _ _).trans (if_pos rfl))
      · exact .unchanged ((now.take_requests _ _ _ _).trans (if_neg same))
          ((now.take_taken _ _ _ _).trans (if_neg same))
  | @withdraws at' settings members merged lastFault there collecting unfinished withdrawn =>
      by_cases same : place = at'
      · subst same
        exact .withdraws there collecting unfinished withdrawn
          ((now.setRequest_requests _ _ _).trans (if_pos rfl)) rfl
      · exact .unchanged ((now.setRequest_requests _ _ _).trans (if_neg same)) rfl
  | @concludes at' settings members merged lastFault there collecting finished =>
      by_cases same : place = at'
      · subst same
        exact .concludes there collecting finished
          ((now.setRequest_requests _ _ _).trans (if_pos rfl)) rfl
      · exact .unchanged ((now.setRequest_requests _ _ _).trans (if_neg same)) rfl
  | cancels planned pending => exact .unchanged rfl rfl

/-- What a step does to the request at a place, in outline.  However a request ends in a step, it was at
work before, and ends at the time of the step. -/
inductive PhaseChange (plan : Plan Answer) (now later : Situation Answer)
    (place : Backend.Place) : Prop where
  | unchanged (same : later.requests place = now.requests place)
      (sameTaken : later.taken place = now.taken place)
  | starts {respondent : Respondent Answer} (there : plan.root.at? place = some respondent)
      (asked : now.IsAsked place) (fresh : now.requests place = .unstarted)
      (begun : later.requests place = firstPhase respondent)
      (spawned : forall settings members, respondent = .federation settings members ->
        forall index, index < members.length -> later.units place index = .spawned)
      (sameTaken : later.taken place = now.taken place)
  | takes {settings : FederationSettings} {members : List (Respondent Answer)}
      {merged next : Option Answer} {lastFault : Option Fault} {outcome : Except Fault Answer}
      (there : plan.root.at? place = some (.federation settings members))
      (collecting : now.requests place = .collecting merged lastFault)
      (extended : Verdict.extend (plan.request.merge settings.window) merged outcome = .ok next)
      (collects : later.requests place =
        .collecting next (Verdict.lastFaultAfter lastFault outcome))
      (oneMore : later.taken place = now.taken place ++ [outcome])
  | ends {ending : Ending Answer} (begun : (now.requests place).HasBegun)
      (pending : ¬ (now.requests place).IsOver)
      (ended : later.requests place = .ended now.millis ending)
  | drops {above : Backend.Place} {index : Nat} (isMember : place = above ++ [index])
      (withdrawn : now.IsWithdrawn place)
      (dropped : later.requests place = Situation.afterDrop (now.requests place))
      (reported : later.units above index = .reported (.error .cancelled))

theorem Work.phaseChange (step : Work plan now later) (place : Backend.Place) :
    PhaseChange plan now later place := by
  cases step.requestChange place with
  | unchanged same sameTaken => exact .unchanged same sameTaken
  | starts there asked fresh begun spawned sameTaken =>
      exact .starts there asked fresh begun spawned sameTaken
  | leafEnds there asleep due ended => exact .ends (asleep ▸ trivial) (asleep ▸ id) ended
  | leafYields there asleep withdrawn ended => exact .ends (asleep ▸ trivial) (asleep ▸ id) ended
  | takes there collecting standing delivered extended collects oneMore =>
      exact .takes there collecting extended collects oneMore
  | mergeFails there collecting standing delivered failed ended =>
      exact .ends (collecting ▸ trivial) (collecting ▸ id) ended
  | withdraws there collecting unfinished withdrawn ended =>
      exact .ends (collecting ▸ trivial) (collecting ▸ id) ended
  | concludes there collecting finished ended =>
      exact .ends (collecting ▸ trivial) (collecting ▸ id) ended
  | drops isMember waiting withdrawn dropped reported =>
      exact .drops isMember withdrawn dropped reported

/-- What a federation takes in a step was in its mailbox, and the federation was at work and stood. -/
theorem Work.takenChange (step : Work plan now later) (place : Backend.Place) :
    later.taken place = now.taken place ∨
      exists outcome, now.units place (now.taken place).length = .reported outcome ∧
        ¬ now.IsWithdrawn place ∧ ¬ (now.requests place).IsOver ∧
        later.taken place = now.taken place ++ [outcome] := by
  cases step.requestChange place with
  | unchanged same sameTaken => exact Or.inl sameTaken
  | starts there asked fresh begun spawned sameTaken => exact Or.inl sameTaken
  | leafEnds there asleep due ended sameTaken => exact Or.inl sameTaken
  | leafYields there asleep withdrawn ended sameTaken => exact Or.inl sameTaken
  | takes there collecting standing delivered extended collects oneMore =>
      exact Or.inr ⟨_, delivered, standing, collecting ▸ id, oneMore⟩
  | mergeFails there collecting standing delivered failed ended oneMore =>
      exact Or.inr ⟨_, delivered, standing, collecting ▸ id, oneMore⟩
  | withdraws there collecting unfinished withdrawn ended sameTaken => exact Or.inl sameTaken
  | concludes there collecting finished ended sameTaken => exact Or.inl sameTaken
  | drops isMember waiting withdrawn dropped reported sameTaken => exact Or.inl sameTaken

theorem Work.taken_cases (step : Work plan now later) {place : Backend.Place} {index : Nat}
    {outcome : Except Fault Answer} (taken : (later.taken place)[index]? = some outcome) :
    (now.taken place)[index]? = some outcome ∨
      now.units place index = .reported outcome ∧ ¬ now.IsWithdrawn place ∧
        ¬ (now.requests place).IsOver := by
  rcases step.takenChange place with same | ⟨last, delivered, standing, pending, oneMore⟩
  · exact Or.inl (same ▸ taken)
  · rw [oneMore] at taken
    rcases Nat.lt_trichotomy index (now.taken place).length with before | rfl | after
    · rw [List.getElem?_append_left before] at taken
      exact Or.inl taken
    · rw [List.getElem?_concat_length] at taken
      cases taken
      exact Or.inr ⟨delivered, standing, pending⟩
    · rw [List.getElem?_eq_none (by rw [List.length_append]; exact after)] at taken
      cases taken

/-! ## Units -/

/-- What a step may do to the unit of a member. -/
inductive UnitChange (plan : Plan Answer) (now later : Situation Answer) (place : Backend.Place)
    (index : Nat) : Prop where
  | unchanged (same : later.units place index = now.units place index)
  | spawns {settings : FederationSettings} {members : List (Respondent Answer)}
      (there : plan.root.at? place = some (.federation settings members))
      (asked : now.IsAsked place) (fresh : now.requests place = .unstarted)
      (begun : later.requests place = .collecting none none)
      (spawned : later.units place index = if index < members.length then .spawned else .absent)
  | starts (spawned : now.units place index = .spawned)
      (waits : later.units place index = .waiting)
  | delivers {settings : FederationSettings} {members : List (Respondent Answer)}
      {millis : Nat} {ending : Ending Answer}
      (there : plan.root.at? place = some (.federation settings members))
      (waiting : now.units place index = .waiting)
      (ended : now.requests (place ++ [index]) = .ended millis ending)
      (standing : ¬ now.IsWithdrawn (place ++ [index]))
      (reported : later.units place index = .reported (ending.outcome index))
  | abandons {settings : FederationSettings} {members : List (Respondent Answer)}
      (there : plan.root.at? place = some (.federation settings members))
      (waiting : now.units place index = .waiting)
      (withdrawn : now.IsWithdrawn (place ++ [index]))
      (dropped : later.requests (place ++ [index]) =
        Situation.afterDrop (now.requests (place ++ [index])))
      (reported : later.units place index = .reported (.error .cancelled))

theorem Work.unitChange (step : Work plan now later) (place : Backend.Place) (index : Nat) :
    UnitChange plan now later place index := by
  cases step with
  | startLeaf there asked fresh => exact .unchanged rfl
  | @startFederation at' settings members there asked fresh =>
      by_cases same : place = at'
      · subst same
        exact .spawns there asked fresh ((now.fanOut_requests _ _ _).trans (if_pos rfl))
          ((now.fanOut_units _ _ _ _).trans (if_pos rfl))
      · exact .unchanged ((now.fanOut_units _ _ _ _).trans (if_neg same))
  | @startUnit at' unit spawned =>
      by_cases same : place = at' ∧ index = unit
      · rcases same with ⟨rfl, rfl⟩
        exact .starts spawned ((now.setUnit_units _ _ _ _ _).trans (if_pos ⟨rfl, rfl⟩))
      · exact .unchanged ((now.setUnit_units _ _ _ _ _).trans (if_neg same))
  | leafEnds there asleep due => exact .unchanged rfl
  | leafYields there asleep heeds withdrawn => exact .unchanged rfl
  | @unitDelivers at' settings members unit millis ending there waiting ended standing =>
      by_cases same : place = at' ∧ index = unit
      · rcases same with ⟨rfl, rfl⟩
        exact .delivers there waiting ended standing
          ((now.report_units _ _ _ _ _ _ _).trans (if_pos ⟨rfl, rfl⟩))
      · exact .unchanged ((now.report_units _ _ _ _ _ _ _).trans (if_neg same))
  | @unitAbandons at' settings members unit there waiting withdrawn =>
      by_cases same : place = at' ∧ index = unit
      · rcases same with ⟨rfl, rfl⟩
        exact .abandons there waiting withdrawn
          ((now.setRequest_requests _ _ _).trans (if_pos rfl))
          ((Situation.report_units _ _ _ _ _ _ _ _).trans (if_pos ⟨rfl, rfl⟩))
      · exact .unchanged ((Situation.report_units _ _ _ _ _ _ _ _).trans (if_neg same))
  | takes there collecting standing delivered extended => exact .unchanged rfl
  | mergeFails there collecting standing delivered failed => exact .unchanged rfl
  | withdraws there collecting unfinished withdrawn => exact .unchanged rfl
  | concludes there collecting finished => exact .unchanged rfl
  | cancels planned pending => exact .unchanged rfl

/-! ## Reports -/

/-- What a step may do to the reports: a unit that waits reports, or nobody does. -/
inductive ReportChange (plan : Plan Answer) (now later : Situation Answer) : Prop where
  | unchanged (same : later.reports = now.reports)
      (old : forall {place : Backend.Place} {index : Nat} {outcome : Except Fault Answer},
        later.units place index = .reported outcome -> now.units place index = .reported outcome)
  | reports {place : Backend.Place} {settings : FederationSettings}
      {members : List (Respondent Answer)} {index : Nat} {outcome : Except Fault Answer}
      (there : plan.root.at? place = some (.federation settings members))
      (waiting : now.units place index = .waiting)
      (reported : later.units place index = .reported outcome)
      (old : forall {other : Backend.Place} {otherIndex : Nat} {otherOutcome : Except Fault Answer},
        later.units other otherIndex = .reported otherOutcome ->
          (other = place ∧ otherIndex = index) ∨ now.units other otherIndex = .reported otherOutcome)
      (told : later.reports = now.reports ++
        if settings.isObserved then
          [⟨place, index, plan.request.kind, CallStatus.ofOutcome outcome, now.millis⟩]
        else [])

theorem Work.reportChange (step : Work plan now later) : ReportChange plan now later := by
  cases step with
  | @startFederation at' settings members there asked fresh =>
      refine .unchanged rfl ?_
      intro place index outcome reported
      rw [now.fanOut_units] at reported
      split at reported
      · split at reported <;> cases reported
      · exact reported
  | @startUnit at' unit spawned =>
      refine .unchanged rfl ?_
      intro place index outcome reported
      rw [now.setUnit_units] at reported
      split at reported
      · cases reported
      · exact reported
  | @unitDelivers at' settings members unit millis ending there waiting ended standing =>
      refine .reports there waiting ((now.report_units _ _ _ _ _ _ _).trans (if_pos ⟨rfl, rfl⟩))
        ?_ rfl
      intro other otherIndex otherOutcome reported
      rw [now.report_units] at reported
      split at reported
      · exact Or.inl ‹_›
      · exact Or.inr reported
  | @unitAbandons at' settings members unit there waiting withdrawn =>
      refine .reports there waiting
        ((Situation.report_units _ _ _ _ _ _ _ _).trans (if_pos ⟨rfl, rfl⟩)) ?_ rfl
      intro other otherIndex otherOutcome reported
      rw [Situation.report_units] at reported
      split at reported
      · exact Or.inl ‹_›
      · exact Or.inr reported
  | _ => exact .unchanged rfl id

/-! ## The clock and the token -/

theorem Work.sameMillis (step : Work plan now later) : later.millis = now.millis := by
  cases step <;> rfl

/-- Only the caller cancels, and only when its time has come. -/
theorem Work.isCancelled_cases (step : Work plan now later) :
    later.isCancelled = now.isCancelled ∨
      (plan.cancel = some (.after now.millis) ∧ later.isCancelled = true) := by
  cases step with
  | cancels planned pending => exact Or.inr ⟨planned, rfl⟩
  | _ => exact Or.inl rfl

end Schedule
end QueryFederation
