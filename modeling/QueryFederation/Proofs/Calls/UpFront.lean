import QueryFederation.Proofs.Calls.Observations
import QueryFederation.Proofs.Schedule.Turns

/-!
# Calls that were cancelled before they began

A call whose token is cancelled when it begins asks nobody.  The federation of the caller has spawned a
unit for each of its members by then, and each unit spawns the request to its member before it looks at
the token.  But it looks before the request has had a turn, and so abandons it unrun: no mock counts a
call or a cancellation, no nested federation comes to spawn anything, and its hook is told nothing.  The
hook of the caller's federation is told of one error for each member.  The caller is answered with the
cancellation at once, and nothing has been merged.

That no request runs in between is a matter of one thread.  How the call ends, and that the units of the
caller's federation report nothing but errors, is so in every order of steps.
-/

namespace QueryFederation

variable {Answer : Type}

/-! ## The course of a call -/

namespace Backend

/-- What can be seen of a federation that asks none of its members is what its own hook is told. -/
theorem traceOfMembers_unasked (request : Request Answer) (cancel : Option Moment)
    (isObserved : Bool) {start stop : Moment} (unasked : start.next.isBefore stop = false)
    (place : Place) (index : Nat) (members : List Backend) :
    traceOfMembers request cancel isObserved start stop place index members =
      ⟨if isObserved then
          (deliveries request cancel start index members).mapIdx fun offset delivery =>
            observe place (index + offset) request.kind start stop delivery
        else [], [], []⟩ := by
  induction members generalizing index with
  | nil => cases isObserved <;> rfl
  | cons member rest inductionHypothesis =>
      rw [traceOfMembers, unasked, inductionHypothesis, deliveries, List.mapIdx_cons]
      cases isObserved with
      | false => rfl
      | true =>
          simp only [Trace.append, Trace.empty, Bool.false_eq_true, if_false, if_true,
            List.append_nil, List.singleton_append, Nat.add_zero, Nat.add_right_comm, Nat.add_assoc]

/-- Everything that is woken runs after the cancellation of a call that is cancelled up front. -/
theorem upFront_lt_next (moment : Moment) : Cancellation.upFront.moment < moment.next := by
  refine (Moment.lt_iff _ _).mpr ?_
  rcases Nat.eq_zero_or_pos moment.millis with atZero | later
  · refine Or.inr ⟨atZero.symm, ?_⟩
    cases phase : moment.phase with
    | round number =>
        rw [Moment.next, phase]
        exact WithTop.coe_lt_coe.mpr (Nat.succ_pos number)
    | settled =>
        rw [Moment.next, phase]
        exact WithTop.coe_lt_top 0
  · exact Or.inl later

/-- A unit that is cancelled up front reports an error as soon as it starts. -/
theorem observe_upFront (place : Place) (index offset : Nat) (kind : ApiKind)
    (answered : Answered Answer) :
    observe place offset kind Moment.callStart Moment.callStart
        (unitDelivery (some Cancellation.upFront.moment) Moment.callStart index answered) =
      ⟨place, offset, kind, .error, Moment.callStart.next⟩ := by
  have late := (Moment.isBefore_iff _ _).mpr (upFront_lt_next answered.moment)
  have cancelled : cancelledBefore? (some Cancellation.upFront.moment) answered.moment.next =
      some Cancellation.upFront.moment :=
    if_pos late
  unfold unitDelivery
  rw [cancelled]
  rfl

/-- The deliveries of units that are cancelled up front are seen as errors. -/
theorem mapIdx_observe_upFront (request : Request Answer) (place : Place) (index : Nat)
    (members : List Backend) :
    ((deliveries request (some Cancellation.upFront.moment) Moment.callStart index members).mapIdx
        fun offset delivery =>
          observe place (index + offset) request.kind Moment.callStart Moment.callStart delivery) =
      (List.range members.length).map fun offset =>
        ⟨place, index + offset, request.kind, .error, Moment.callStart.next⟩ := by
  induction members generalizing index with
  | nil => rfl
  | cons member rest inductionHypothesis =>
      have later := inductionHypothesis (index + 1)
      simp only [Nat.add_assoc, Nat.add_comm 1] at later
      rw [deliveries, List.mapIdx_cons, observe_upFront, later, List.length_cons,
        List.range_succ_eq_map, List.map_cons, List.map_map]
      rfl

/-- All that can be seen of a call of a federation with members that is cancelled up front. -/
theorem traceOfCall_upFront (request : Request Answer) (settings : FederationSettings)
    {members : List Backend} (nonempty : members ≠ []) :
    (federation settings members).traceOfCall request (some .upFront) =
      ⟨if settings.isObserved then
          (List.range members.length).map fun index =>
            ⟨[], index, request.kind, .error, Moment.callStart.next⟩
        else [], [], []⟩ := by
  have stops := congrArg Answered.moment (call_upFront request settings members nonempty)
  change (answer request (some Cancellation.upFront.moment) .caller Moment.callStart
    (federation settings members)).moment = Moment.callStart at stops
  have unasked : Moment.callStart.next.isBefore Moment.callStart = false := by decide
  unfold traceOfCall
  dsimp only [Option.map_some]
  rw [trace, stops, traceOfMembers_unasked request _ _ unasked]
  have row := mapIdx_observe_upFront request [] 0 members
  simp only [Nat.zero_add] at row ⊢
  rw [row]

end Backend

/-! ## Every order of steps -/

namespace Schedule

variable {plan : Plan Answer} {now later : Situation Answer}

theorem Reachable.cancelled_upFront (reachable : Reachable plan now)
    (upFront : plan.cancel = some .upFront) : now.isCancelled = true := by
  apply reachable.invariant fun situation => situation.isCancelled = true
  · exact decide_eq_true upFront
  · intro before after _ cancelled step
    cases step with
    | pass quiet => exact cancelled
    | work step =>
        rcases step.isCancelled_cases with same | ⟨_, cancelledNow⟩
        · exact same.trans cancelled
        · exact cancelledNow

/-- The units of a call that is cancelled up front deliver nothing but the cancellation. -/
theorem Reachable.reported_upFront (reachable : Reachable plan now)
    (upFront : plan.cancel = some .upFront) {place : Backend.Place} {index : Nat}
    {outcome : Except Fault Answer} (reported : now.units place index = .reported outcome) :
    outcome = .error .cancelled := by
  revert place index outcome
  apply reachable.invariant fun situation =>
    forall {place : Backend.Place} {index : Nat} {outcome : Except Fault Answer},
      situation.units place index = .reported outcome -> outcome = .error .cancelled
  · intro place index outcome reported
    cases reported
  · intro before after run cancellations step place index outcome reported
    cases step with
    | pass quiet => exact cancellations reported
    | work step =>
        cases step.unitChange place index with
        | unchanged same => exact cancellations (same.symm.trans reported)
        | spawns there asked fresh begun spawned =>
            rw [spawned] at reported
            split at reported <;> cases reported
        | starts spawned waits => cases waits.symm.trans reported
        | delivers there waiting ended standing =>
            exact absurd (Or.inl (run.cancelled_upFront upFront)) standing
        | abandons there waiting withdrawn dropped abandoned =>
            cases abandoned.symm.trans reported
            rfl

/-- No federation takes an outcome in a call that is cancelled up front, so none merges anything. -/
theorem Reachable.taken_upFront (reachable : Reachable plan now)
    (upFront : plan.cancel = some .upFront) (place : Backend.Place) : now.taken place = [] := by
  apply reachable.invariant fun situation => situation.taken place = []
  · rfl
  · intro before after run nothing step
    cases step with
    | pass quiet => exact nothing
    | work step =>
        rcases step.takenChange place with same | ⟨_, _, standing, _⟩
        · exact same.trans nothing
        · exact absurd (Or.inl (run.cancelled_upFront upFront)) standing

/-- All reports of a call that is cancelled up front come at its beginning. -/
theorem Reachable.report_millis_upFront (reachable : Reachable plan now)
    (upFront : plan.cancel = some .upFront) {settings : FederationSettings}
    {members : List (Respondent Answer)} (isFederation : plan.root = .federation settings members)
    (nonempty : members ≠ []) {report : Report} (isReport : report ∈ now.reports) :
    report.millis = 0 := by
  apply Nat.eq_zero_of_le_zero
  have timely := reachable.timely isFederation
  by_cases isOver : (now.requests []).IsOver
  · rcases reachable.coherent.root_ended isOver with ⟨millis, ending, ended⟩
    have inTime := (reachable.reportsInTime millis ending ended).1 report isReport
    rcases timely.ended ended with ⟨_, _, none, _⟩ | ⟨_, _, _, cancellation, planned, atIt⟩
    · exact absurd (none upFront) nonempty
    · cases upFront.symm.trans planned
      exact inTime.trans (Nat.le_of_eq atIt)
  · rcases timely.cancelled (reachable.cancelled_upFront upFront) with
        ⟨cancellation, planned, _, atIt⟩
    cases upFront.symm.trans planned
    rcases reachable.accounted.told isReport with ⟨_, _, _, _, _, _, _, _, notLater⟩
    exact notLater.trans (Nat.le_of_eq (atIt isOver))

/-! ## One thread -/

/-- That no member at any depth has been asked, and that no unit waits for one. -/
structure Unasked (now : Situation Answer) : Prop where
  idle : forall {place : Backend.Place}, place ≠ [] -> ¬ (now.requests place).HasBegun
  unwaited : forall (place : Backend.Place) (index : Nat), now.units place index ≠ .waiting

theorem unasked_start (cancel : Option Cancellation) :
    Unasked (Situation.start cancel : Situation Answer) where
  idle := fun _ begun => begun
  unwaited := fun _ _ waiting => nomatch waiting

namespace Unasked

theorem not_begun_afterDrop {phase : RequestPhase Answer} (idle : ¬ phase.HasBegun) :
    ¬ (Situation.afterDrop phase).HasBegun := by
  cases phase with
  | unstarted => exact id
  | skipped => exact id
  | _ => exact absurd trivial idle

/-- A step other than the first turn of a unit asks nobody if nobody has been asked. -/
theorem other (unasked : Unasked now) (step : Next plan now later)
    (unitsWait : forall place index,
      now.units place index = .spawned -> later.units place index = .spawned) : Unasked later := by
  cases step with
  | pass quiet => exact ⟨unasked.idle, unasked.unwaited⟩
  | work step =>
      constructor
      · intro place notRoot
        cases step.phaseChange place with
        | unchanged same => exact same ▸ unasked.idle notRoot
        | starts there asked =>
            rcases asked with isRoot | ⟨above, index, _, waiting⟩
            · exact absurd isRoot notRoot
            · exact absurd waiting (unasked.unwaited above index)
        | takes there collecting => exact absurd (collecting ▸ trivial) (unasked.idle notRoot)
        | ends begun => exact absurd begun (unasked.idle notRoot)
        | drops isMember withdrawn dropped =>
            rw [dropped]
            exact not_begun_afterDrop (unasked.idle notRoot)
      · intro place index
        cases step.unitChange place index with
        | unchanged same => exact same ▸ unasked.unwaited place index
        | spawns there asked fresh begun spawned =>
            rw [spawned]
            split <;> exact fun waiting => nomatch waiting
        | starts spawned waits =>
            rw [unitsWait place index spawned]
            exact fun waiting => nomatch waiting
        | delivers there waiting => exact absurd waiting (unasked.unwaited place index)
        | abandons there waiting => exact absurd waiting (unasked.unwaited place index)

/-- A unit that abandons its request in its first turn has asked nobody. -/
theorem abandons (unasked : Unasked now) (kind : ApiKind) (settings : FederationSettings)
    (place : Backend.Place) (index : Nat) (outcome : Except Fault Answer) :
    Unasked ((now.drop (place ++ [index])).report kind settings place index outcome) where
  idle := by
    intro other notRoot
    change ¬ ((now.setRequest (place ++ [index]) _).requests other).HasBegun
    rw [now.setRequest_requests]
    by_cases own : other = place ++ [index]
    · rw [if_pos own]
      exact not_begun_afterDrop (unasked.idle (List.append_ne_nil_of_right_ne_nil _ (by simp)))
    · rw [if_neg own]
      exact unasked.idle notRoot
  unwaited := by
    intro other otherIndex
    rw [Situation.report_units]
    split
    · exact fun waiting => nomatch waiting
    · exact unasked.unwaited other otherIndex

end Unasked

/-- On one thread a call that is cancelled up front asks nobody. -/
theorem ReachableInTurns.unasked (reachable : ReachableInTurns plan now)
    (upFront : plan.cancel = some .upFront) : Unasked now := by
  induction reachable with
  | refl => exact unasked_start plan.cancel
  | tail run turn inductionHypothesis =>
      cases turn with
      | other step unitsWait => exact inductionHypothesis.other step unitsWait
      | starts spawned standing =>
          have cancelled := (ReachableInTurns.reachable run).cancelled_upFront upFront
          exact absurd (Or.inl cancelled) standing
      | abandons there spawned withdrawn => exact inductionHypothesis.abandons _ _ _ _ _

/-- On one thread, what is reported of a call that is cancelled up front are errors of the members of the
caller's federation, at once. -/
theorem ReachableInTurns.report_upFront (reachable : ReachableInTurns plan now)
    (upFront : plan.cancel = some .upFront) {settings : FederationSettings}
    {members : List (Respondent Answer)} (isFederation : plan.root = .federation settings members)
    (nonempty : members ≠ []) {report : Report} (isReport : report ∈ now.reports) :
    settings.isObserved = true ∧ report = ⟨[], report.index, plan.request.kind, .error, 0⟩ := by
  have steps := reachable.reachable
  rcases steps.accounted.told isReport with
      ⟨_, _, outcome, there, observed, reported, kind, status, _⟩
  have begun := steps.coherent.begun_of_unit fun absent => nomatch reported.symm.trans absent
  have isRoot : report.place = [] := by
    by_contra notRoot
    exact (reachable.unasked upFront).idle notRoot begun
  have failed := steps.reported_upFront upFront reported
  have atOnce := steps.report_millis_upFront upFront isFederation nonempty isReport
  rw [isRoot, Respondent.at?_nil, isFederation] at there
  cases there
  rw [failed] at status
  refine ⟨observed, ?_⟩
  cases report
  simp only at isRoot kind status atOnce
  rw [isRoot, kind, status, atOnce]
  rfl

/-- How a call of a federation of a size stands when it was cancelled up front and nobody has to report
any more: it ended at once with the cancellation, and the hook of the federation, if it has one, has been
told of one error for each member, and no other hook of anything. -/
structure IsRefused (plan : Plan Answer) (settings : FederationSettings) (size : Nat)
    (now : Situation Answer) : Prop where
  ended : now.requests [] = .ended 0 (.returned (.error .cancelled))
  reports : now.reports.Perm
    (if settings.isObserved then
      (List.range size).map fun index => ⟨[], index, plan.request.kind, .error, 0⟩
    else [])

theorem ReachableInTurns.isRefused (reachable : ReachableInTurns plan now)
    (upFront : plan.cancel = some .upFront) {settings : FederationSettings}
    {members : List (Respondent Answer)} (isFederation : plan.root = .federation settings members)
    (nonempty : members ≠ []) (settled : Settled now) :
    IsRefused plan settings members.length now := by
  have steps := reachable.reachable
  rcases steps.coherent.root_ended settled.isOver with ⟨millis, ending, ended⟩
  constructor
  · rcases (steps.timely isFederation).ended ended with
      ⟨_, _, none, _⟩ | ⟨cancelled, _, _, cancellation, planned, atIt⟩
    · exact absurd (none upFront) nonempty
    · cases upFront.symm.trans planned
      rw [ended, cancelled, atIt]
      rfl
  · have known {report : Report} (isReport : report ∈ now.reports) :=
      reachable.report_upFront upFront isFederation nonempty isReport
    by_cases observed : settings.isObserved = true
    · have there : plan.root.at? [] = some (.federation settings members) := by
        rw [Respondent.at?_nil, isFederation]
      have complete := settled.row_perm_of_begun steps.coherent steps.accounted there observed
        (ended ▸ trivial)
      have allHere : (now.reports.filter fun report => report.place = []) = now.reports := by
        apply List.filter_eq_self.mpr
        intro report isReport
        exact decide_eq_true (congrArg Report.place (known isReport).2)
      have fromRow : (row now []).map
            (fun index => (⟨[], index, plan.request.kind, .error, 0⟩ : Report)) =
          now.reports := by
        rw [row, allHere, List.map_map]
        refine (List.map_congr_left ?_).trans (List.map_id now.reports)
        intro report isReport
        exact (known isReport).2.symm
      rw [if_pos observed, ← fromRow]
      exact complete.map _
    · rw [if_neg observed, List.perm_nil]
      apply List.eq_nil_iff_forall_not_mem.mpr
      intro report isReport
      exact observed (known isReport).1

/-- On one thread, a call of a federation with members that is cancelled up front comes to be refused,
and remains as it is. -/
theorem inTurns_isRefused (request : Request Answer) (settings : FederationSettings)
    {members : List (Respondent Answer)} (nonempty : members ≠ []) :
    let plan : Plan Answer := ⟨request, .federation settings members, some .upFront⟩
    InTurns plan
      (fun now => forall later, Relation.ReflTransGen (Turn plan) now later ->
        IsRefused plan settings members.length later)
      (Situation.start plan.cancel) := by
  intro plan
  have settles := (inevitably_settled request settings members (some .upFront)).imp
    (fun _ settled => settled.2)
  have inTurns := settles.inTurns
    (fun settled step => (settled.reports_stay (.single step)).1) (coherent_start _)
  apply (inTurns.along .refl).imp
  rintro now ⟨reachable, settled⟩ later turns
  have settledLater := (settled.reports_stay (reflTransGen_next_of_turns turns)).1
  exact ReachableInTurns.isRefused (reachable.trans turns) rfl rfl nonempty settledLater

end Schedule

open Schedule

namespace Backend

/-- A call of a federation with members that is cancelled when it begins is answered at once with the
cancellation, without a merge, and asks nobody: no mock is reached, none notices the cancellation, and
the only thing to be seen is one error for each member, told to the federation's own hook.  This is so in
the course of the call and in every course of turns of one thread; the ending is so in every order of
steps. -/
theorem call_cancelled_up_front (operation : ReadOperation) (settings : FederationSettings)
    (members : List Backend) (nonempty : members ≠ []) :
    let request := operation.request
    let root := federation settings members
    let call := root.call request (some .upFront)
    let plan : Plan operation.Answer := ⟨request, root.respondent request, some .upFront⟩
    call.ending = .returned (.error .cancelled) ∧ call.moment.millis = 0 ∧ call.merges = 0 ∧
      root.traceOfCall request (some .upFront) =
        ⟨if settings.isObserved then
            (List.range members.length).map fun index =>
              ⟨[], index, request.kind, .error, Moment.callStart.next⟩
          else [], [], []⟩ ∧
      AlwaysEnds plan 0 (.error .cancelled) ∧
      (forall now, ReachableInTurns plan now ->
        (forall place, place ≠ [] -> ¬ (now.requests place).HasBegun) ∧
          forall place, now.taken place = []) ∧
      InTurns plan
        (fun now => forall later, Relation.ReflTransGen (Turn plan) now later ->
          IsRefused plan settings members.length later)
        (Situation.start plan.cancel) := by
  intro request root call plan
  have refused := call_upFront request settings members nonempty
  have someMember : respondents request members ≠ [] := by
    rw [respondents_eq_map]
    exact mt List.map_eq_nil_iff.mp nonempty
  have sameSize : (respondents request members).length = members.length := by
    rw [respondents_eq_map, List.length_map]
  refine ⟨congrArg Answered.ending refused, congrArg (fun answered => answered.moment.millis) refused,
    congrArg Answered.merges refused, traceOfCall_upFront request settings nonempty,
    alwaysEnds_of_upFront someMember, ?_, ?_⟩
  · intro now reachable
    exact ⟨fun place notRoot => (reachable.unasked rfl).idle notRoot,
      reachable.reachable.taken_upFront rfl⟩
  · rw [← sameSize]
    exact inTurns_isRefused request settings someMember

/-- A client that breaks down and a mock that would take no notice of a cancellation, both behind a
nested federation with a hook of its own, and a mock that fails at once. -/
theorem call_cancelled_up_front_nested :
    let request := (ReadOperation.labelValues "job").request
    let stubborn : Mock :=
      { Mock.silent "stubborn" with delayMillis := 10, ignoresCancellation := true }
    let broken : Mock := { Mock.silent "broken" with failure := some "no" }
    let nested := federation ⟨Duration.zero, ["stubborn"], true⟩ [.mock stubborn, .crashing "gone"]
    let members := [nested, .mock broken]
    let root := federation ⟨Duration.zero, ["broken"], true⟩ members
    members ≠ [] ∧ (root.call request (some .upFront)).ending = .returned (.error .cancelled) ∧
      (root.call request (some .upFront)).moment.millis = 0 ∧
      (root.traceOfCall request (some .upFront)).reached = [] ∧
      (root.traceOfCall request (some .upFront)).observations.map Observation.index = [0, 1] := by
  intro request stubborn broken nested members root
  have nonempty : members ≠ [] := List.cons_ne_nil _ _
  have result := call_cancelled_up_front (.labelValues "job") ⟨Duration.zero, ["broken"], true⟩
    members nonempty
  rcases result with ⟨ending, atOnce, _, seen, _⟩
  exact ⟨nonempty, ending, atOnce, congrArg Trace.reached seen,
    congrArg (fun trace => trace.observations.map Observation.index) seen⟩

end Backend
end QueryFederation
