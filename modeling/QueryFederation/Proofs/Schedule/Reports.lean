import Mathlib.Data.List.Nodup
import QueryFederation.Proofs.Schedule.Endings

/-!
# What the hooks are told in every order of steps

A unit reports once, when it leaves its outcome in the mailbox, and it reports that outcome.  When the
call of the caller has ended, the units that are still at work find themselves withdrawn and report at
once, so the time cannot pass before all of them have.  From then on there is nobody left to report.
-/

namespace QueryFederation
namespace Schedule

variable {Answer : Type} {plan : Plan Answer} {now later : Situation Answer}

/-! ## Reports and outcomes -/

namespace Report

/-- The unit that a report is from. -/
def unit (report : Report) : Backend.Place × Nat :=
  (report.place, report.index)

end Report

/-- The indices in the reports of one federation. -/
def row (now : Situation Answer) (place : Backend.Place) : List Nat :=
  (now.reports.filter fun report => report.place = place).map Report.index

/-- That the reports are about the outcomes in the mailboxes: all of them, each one once. -/
structure Accounted (plan : Plan Answer) (now : Situation Answer) : Prop where
  told : forall {report : Report}, report ∈ now.reports ->
    exists settings members outcome,
      plan.root.at? report.place = some (.federation settings members) ∧
        settings.isObserved = true ∧ now.units report.place report.index = .reported outcome ∧
        report.kind = plan.request.kind ∧ report.status = CallStatus.ofOutcome outcome ∧
        report.millis ≤ now.millis
  complete : forall {place : Backend.Place} {settings : FederationSettings}
    {members : List (Respondent Answer)} {index : Nat} {outcome : Except Fault Answer},
    plan.root.at? place = some (.federation settings members) -> settings.isObserved = true ->
      now.units place index = .reported outcome -> (place, index) ∈ now.reports.map Report.unit
  once : (now.reports.map Report.unit).Nodup

theorem accounted_start (plan : Plan Answer) : Accounted plan (Situation.start plan.cancel) where
  told := fun isReport => nomatch isReport
  complete := fun _ _ reported => nomatch reported
  once := List.nodup_nil

namespace Accounted

theorem work_told (coherent : Coherent plan now) (accounted : Accounted plan now)
    (step : Work plan now later) {report : Report} (isReport : report ∈ later.reports) :
    exists settings members outcome,
      plan.root.at? report.place = some (.federation settings members) ∧
        settings.isObserved = true ∧ later.units report.place report.index = .reported outcome ∧
        report.kind = plan.request.kind ∧ report.status = CallStatus.ofOutcome outcome ∧
        report.millis ≤ later.millis := by
  rw [step.sameMillis]
  have earlier (before : report ∈ now.reports) :
      exists settings members outcome,
        plan.root.at? report.place = some (.federation settings members) ∧
          settings.isObserved = true ∧ later.units report.place report.index = .reported outcome ∧
          report.kind = plan.request.kind ∧ report.status = CallStatus.ofOutcome outcome ∧
          report.millis ≤ now.millis := by
    rcases accounted.told before with ⟨settings, members, outcome, there, observed, reported, rest⟩
    exact ⟨settings, members, outcome, there, observed, coherent.reported_stays step reported, rest⟩
  cases step.reportChange with
  | unchanged same => exact earlier (same ▸ isReport)
  | @reports place settings members index outcome there waiting reported old told =>
      rw [told] at isReport
      rcases List.mem_append.mp isReport with before | new
      · exact earlier before
      · by_cases observed : settings.isObserved = true
        · rw [if_pos observed, List.mem_singleton] at new
          subst new
          exact ⟨settings, members, outcome, there, observed, reported, rfl, rfl, Nat.le_refl _⟩
        · rw [if_neg observed] at new
          cases new

theorem work_complete (accounted : Accounted plan now) (step : Work plan now later)
    {place : Backend.Place} {settings : FederationSettings} {members : List (Respondent Answer)}
    {index : Nat} {outcome : Except Fault Answer}
    (there : plan.root.at? place = some (.federation settings members))
    (observed : settings.isObserved = true)
    (reported : later.units place index = .reported outcome) :
    (place, index) ∈ later.reports.map Report.unit := by
  cases step.reportChange with
  | unchanged same old =>
      rw [same]
      exact accounted.complete there observed (old reported)
  | reports isThere waiting reportedNow old told =>
      rw [told, List.map_append, List.mem_append]
      rcases old reported with ⟨rfl, rfl⟩ | before
      · cases there.symm.trans isThere
        rw [if_pos observed]
        exact Or.inr (List.mem_singleton.mpr rfl)
      · exact Or.inl (accounted.complete there observed before)

theorem work_once (accounted : Accounted plan now) (step : Work plan now later) :
    (later.reports.map Report.unit).Nodup := by
  cases step.reportChange with
  | unchanged same => exact same ▸ accounted.once
  | @reports place settings members index outcome there waiting reported old told =>
      rw [told]
      by_cases observed : settings.isObserved = true
      · rw [if_pos observed, List.map_append]
        refine List.Nodup.append accounted.once (List.nodup_singleton _) ?_
        -- The unit waits, so there is no report from it yet.
        intro unit before new
        rcases List.mem_map.mp before with ⟨report, isReport, rfl⟩
        rcases accounted.told isReport with ⟨_, _, _, _, _, lies, _⟩
        rcases Prod.mk.inj (List.mem_singleton.mp new) with ⟨rfl, rfl⟩
        cases waiting.symm.trans lies
      · rw [if_neg observed, List.append_nil]
        exact accounted.once

theorem work (coherent : Coherent plan now) (accounted : Accounted plan now)
    (step : Work plan now later) : Accounted plan later where
  told := accounted.work_told coherent step
  complete := accounted.work_complete step
  once := accounted.work_once step

theorem pass (accounted : Accounted plan now) :
    Accounted plan { now with millis := now.millis + 1 } where
  told := by
    intro report isReport
    rcases accounted.told isReport with
        ⟨settings, members, outcome, there, observed, reported, kind, status, inTime⟩
    exact ⟨settings, members, outcome, there, observed, reported, kind, status,
      Nat.le_succ_of_le inTime⟩
  complete := accounted.complete
  once := accounted.once

theorem row_nodup (accounted : Accounted plan now) (place : Backend.Place) :
    (row now place).Nodup := by
  have units : ((now.reports.filter fun report => report.place = place).map Report.unit).Nodup :=
    accounted.once.sublist (List.filter_sublist.map _)
  have samePlace : (now.reports.filter fun report => report.place = place).map Report.unit =
      (row now place).map (Prod.mk place) := by
    rw [row, List.map_map]
    apply List.map_congr_left
    intro report isReport
    have there := (List.mem_filter.mp isReport).2
    exact Prod.ext (of_decide_eq_true there) rfl
  rw [samePlace] at units
  exact units.of_map _

/-- The units that have reported are those whose outcomes lie in the mailboxes. -/
theorem mem_row_iff (accounted : Accounted plan now) {place : Backend.Place}
    {settings : FederationSettings} {members : List (Respondent Answer)}
    (there : plan.root.at? place = some (.federation settings members))
    (observed : settings.isObserved = true) (index : Nat) :
    index ∈ row now place <-> exists outcome, now.units place index = .reported outcome := by
  constructor
  · intro inRow
    rcases List.mem_map.mp inRow with ⟨report, isReport, rfl⟩
    rcases List.mem_filter.mp isReport with ⟨before, here⟩
    rcases accounted.told before with ⟨_, _, outcome, _, _, reported, _⟩
    rw [of_decide_eq_true here] at reported
    exact ⟨outcome, reported⟩
  · rintro ⟨outcome, reported⟩
    rcases List.mem_map.mp (accounted.complete there observed reported) with
        ⟨report, isReport, same⟩
    rcases Prod.mk.inj same with ⟨rfl, rfl⟩
    exact List.mem_map.mpr
      ⟨report, List.mem_filter.mpr ⟨isReport, decide_eq_true rfl⟩, rfl⟩

end Accounted

theorem Reachable.accounted (reachable : Reachable plan now) : Accounted plan now := by
  apply reachable.invariant _ (accounted_start plan)
  intro before after run accounted step
  cases step with
  | work step => exact accounted.work run.coherent step
  | pass quiet => exact accounted.pass

/-! ## Calls of which nobody has to report any more -/

/-- Whether every unit there is has reported. -/
def AllReported (now : Situation Answer) : Prop :=
  forall place index, now.units place index = .absent ∨
    exists outcome, now.units place index = .reported outcome

theorem AllReported.not_waiting (all : AllReported now) (place : Backend.Place) (index : Nat) :
    now.units place index ≠ .waiting := by
  intro waiting
  rcases all place index with absent | ⟨outcome, reported⟩
  · cases waiting.symm.trans absent
  · cases waiting.symm.trans reported

/-- Whether the call has ended and nobody has to report any more. -/
structure Settled (now : Situation Answer) : Prop where
  isOver : (now.requests []).IsOver
  allReported : AllReported now

namespace Settled

/-- In a call that is settled no request is started. -/
theorem not_asked (settled : Settled now) {place : Backend.Place}
    (fresh : now.requests place = .unstarted) : ¬ now.IsAsked place := by
  rintro (rfl | ⟨above, index, rfl, waiting⟩)
  · exact absurd settled.isOver (fresh ▸ id)
  · exact settled.allReported.not_waiting above index waiting

theorem work (settled : Settled now) (step : Work plan now later) :
    Settled later ∧ later.reports = now.reports := by
  refine ⟨⟨?_, ?_⟩, ?_⟩
  · rw [step.over_stays settled.isOver]
    exact settled.isOver
  · intro place index
    cases step.unitChange place index with
    | unchanged same => exact same ▸ settled.allReported place index
    | spawns there asked fresh => exact absurd asked (settled.not_asked fresh)
    | starts spawned waits =>
        rcases settled.allReported place index with absent | ⟨outcome, reported⟩
        · cases spawned.symm.trans absent
        · cases spawned.symm.trans reported
    | delivers there waiting => exact absurd waiting (settled.allReported.not_waiting place index)
    | abandons there waiting => exact absurd waiting (settled.allReported.not_waiting place index)
  · cases step.reportChange with
    | unchanged same => exact same
    | reports there waiting => exact absurd waiting (settled.allReported.not_waiting _ _)

/-- Once a call is settled nothing is reported any more. -/
theorem reports_stay (settled : Settled now)
    (run : Relation.ReflTransGen (Next plan) now later) :
    Settled later ∧ later.reports = now.reports := by
  induction run with
  | refl => exact ⟨settled, rfl⟩
  | tail run step inductionHypothesis =>
      rcases inductionHypothesis with ⟨before, same⟩
      cases step with
      | pass quiet => exact ⟨⟨before.isOver, before.allReported⟩, same⟩
      | work step =>
          rcases before.work step with ⟨after, unchanged⟩
          exact ⟨after, unchanged.trans same⟩

end Settled

/-- When the call has ended, the time passes only when all units have reported. -/
theorem allReported_of_quiet (coherent : Coherent plan now) (isOver : (now.requests []).IsOver)
    (quiet : IsQuiet plan now) : AllReported now := by
  intro place index
  cases unit : now.units place index with
  | absent => exact Or.inl rfl
  | spawned => exact absurd (.startUnit unit) (quiet _)
  | reported outcome => exact Or.inr ⟨outcome, rfl⟩
  | waiting =>
      rcases coherent.federation_of_unit (fun absent => nomatch unit.symm.trans absent) with
          ⟨settings, members, there, _⟩
      have withdrawn : now.IsWithdrawn (place ++ [index]) :=
        Or.inr ⟨[], List.nil_prefix, (List.concat_ne_nil _ _).symm, isOver⟩
      exact absurd (.unitAbandons there unit withdrawn) (quiet _)

/-- No report comes after the end of the call, and its time does not pass before all units have
reported. -/
def ReportsInTime (now : Situation Answer) : Prop :=
  forall millis ending, now.requests [] = .ended millis ending ->
    (forall report, report ∈ now.reports -> report.millis ≤ millis) ∧
      (now.millis = millis ∨ AllReported now)

theorem reportsInTime_work (coherent : Coherent plan now) (accounted : Accounted plan now)
    (inTime : ReportsInTime now) (step : Work plan now later) : ReportsInTime later := by
  intro millis ending ended
  by_cases isOver : (now.requests []).IsOver
  · have endedBefore := (step.over_stays isOver).symm.trans ended
    rcases inTime millis ending endedBefore with ⟨before, atIt⟩
    rw [step.sameMillis]
    rcases atIt with same | all
    · refine ⟨?_, Or.inl same⟩
      intro report isReport
      rcases (accounted.work coherent step).told isReport with ⟨_, _, _, _, _, _, _, _, notLater⟩
      rwa [step.sameMillis, same] at notLater
    · rcases Settled.work ⟨isOver, all⟩ step with ⟨settled, sameReports⟩
      exact ⟨sameReports ▸ before, Or.inr settled.allReported⟩
  · have atIt := step.ended_now isOver ended
    refine ⟨?_, Or.inl (step.sameMillis.trans atIt.symm)⟩
    intro report isReport
    rcases (accounted.work coherent step).told isReport with ⟨_, _, _, _, _, _, _, _, notLater⟩
    rwa [step.sameMillis, ← atIt] at notLater

theorem Reachable.reportsInTime (reachable : Reachable plan now) : ReportsInTime now := by
  apply reachable.invariant ReportsInTime
  · intro millis ending ended
    cases ended
  · intro before after run inTime step
    cases step with
    | work step => exact reportsInTime_work run.coherent run.accounted inTime step
    | pass quiet =>
        intro millis ending ended
        have all := allReported_of_quiet run.coherent (ended ▸ trivial) quiet
        exact ⟨(inTime millis ending ended).1, Or.inr all⟩

/-- The call of a federation comes to be settled, in every order of steps. -/
theorem inevitably_settled (request : Request Answer) (settings : FederationSettings)
    (members : List (Respondent Answer)) (cancel : Option Cancellation) :
    Inevitably ⟨request, .federation settings members, cancel⟩
      (fun now => Reachable ⟨request, .federation settings members, cancel⟩ now ∧ Settled now)
      (Situation.start cancel) := by
  apply Reachable.inevitably ((Respondent.federation settings members).finishMillis request) _ .refl
  intro now reachable unsettled
  by_cases isOver : (now.requests []).IsOver
  · rcases reachable.coherent.root_ended isOver with ⟨millis, ending, ended⟩
    rcases reachable.reportsInTime millis ending ended with ⟨_, same | all⟩
    · rw [same]
      rcases (reachable.timely rfl).ended ended with ⟨_, atFinish, _⟩ | ⟨_, _, notAfter, _⟩
      · exact Nat.le_of_eq atFinish
      · exact notAfter
    · exact absurd ⟨reachable, isOver, all⟩ unsettled
  · exact (reachable.timely rfl).inTime isOver

/-! ## Rows -/

/-- A request can only have begun below requests that have begun. -/
theorem Coherent.begun_of_prefix (coherent : Coherent plan now) {place above : Backend.Place}
    (isPrefix : above <+: place) (begun : (now.requests place).HasBegun) :
    (now.requests above).HasBegun := by
  induction place using List.reverseRecOn with
  | nil =>
      rw [List.prefix_nil.mp isPrefix]
      exact begun
  | append_singleton place index inductionHypothesis =>
      rcases List.prefix_concat_iff.mp isPrefix with same | shorter
      · exact same ▸ begun
      · apply inductionHypothesis shorter
        have started : now.requests (place ++ [index]) ≠ .unstarted :=
          fun fresh => absurd begun (fresh ▸ id)
        have present : now.units place index ≠ .absent := by
          intro absent
          rcases coherent.unit_of_request started with waiting | ⟨outcome, reported⟩
          · cases absent.symm.trans waiting
          · cases absent.symm.trans reported
        exact coherent.begun_of_unit present

/-- In a settled call, a request that has not begun was abandoned before it ran, or one above it was. -/
theorem Settled.exists_skipped (coherent : Coherent plan now) (settled : Settled now)
    (place : Backend.Place) {respondent : Respondent Answer}
    (there : plan.root.at? place = some respondent) (idle : ¬ (now.requests place).HasBegun) :
    exists above, above <+: place ∧ now.requests above = .skipped := by
  induction place using List.reverseRecOn generalizing respondent with
  | nil =>
      rcases coherent.root_ended settled.isOver with ⟨millis, ending, ended⟩
      exact absurd (ended ▸ trivial) idle
  | append_singleton place index inductionHypothesis =>
      cases phase : now.requests (place ++ [index]) with
      | skipped => exact ⟨_, List.prefix_rfl, phase⟩
      | unstarted =>
          rw [Respondent.at?_concat] at there
          cases federation : plan.root.at? place with
          | none =>
              rw [federation] at there
              cases there
          | some parent =>
              rw [federation] at there
              cases parent with
              | leaf script => cases there
              | federation settings members =>
                  have parentIdle : ¬ (now.requests place).HasBegun := by
                    intro begun
                    rcases List.getElem?_eq_some_iff.mp there with ⟨inside, _⟩
                    rcases settled.allReported place index with absent | ⟨outcome, reported⟩
                    · exact coherent.unit_of_begun federation begun inside absent
                    · exact absurd (coherent.over_of_reported reported) (phase ▸ id)
                  rcases inductionHypothesis federation parentIdle with ⟨above, isPrefix, skipped⟩
                  exact ⟨above, isPrefix.trans (List.prefix_append _ _), skipped⟩
      | _ => exact absurd (phase ▸ trivial) idle

/-- In a settled call the row of a federation is complete if its request has begun. -/
theorem Settled.row_perm_of_begun (coherent : Coherent plan now) (accounted : Accounted plan now)
    (settled : Settled now) {place : Backend.Place} {settings : FederationSettings}
    {members : List (Respondent Answer)}
    (there : plan.root.at? place = some (.federation settings members))
    (observed : settings.isObserved = true) (begun : (now.requests place).HasBegun) :
    (row now place).Perm (List.range members.length) := by
  apply (List.perm_ext_iff_of_nodup (accounted.row_nodup place) List.nodup_range).mpr
  intro index
  rw [accounted.mem_row_iff there observed, List.mem_range]
  constructor
  · rintro ⟨outcome, reported⟩
    rcases coherent.federation_of_unit (fun absent => nomatch reported.symm.trans absent) with
        ⟨_, _, same, inside⟩
    cases there.symm.trans same
    exact inside
  · intro inside
    exact (settled.allReported place index).resolve_left (coherent.unit_of_begun there begun inside)

/-- A federation whose request has not begun has no row. -/
theorem row_of_idle (coherent : Coherent plan now) (accounted : Accounted plan now)
    {place : Backend.Place} {settings : FederationSettings} {members : List (Respondent Answer)}
    (there : plan.root.at? place = some (.federation settings members))
    (observed : settings.isObserved = true) (idle : ¬ (now.requests place).HasBegun) :
    row now place = [] := by
  apply List.eq_nil_iff_forall_not_mem.mpr
  intro index inRow
  rcases (accounted.mem_row_iff there observed index).mp inRow with ⟨outcome, reported⟩
  exact idle (coherent.begun_of_unit fun absent => nomatch reported.symm.trans absent)

end Schedule
end QueryFederation
