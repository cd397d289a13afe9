import QueryFederation.Proofs.Federation.Rows
import QueryFederation.Proofs.Schedule.Reports

/-!
# What the hooks are told of one call

One call of a federation makes its hook see every member exactly once.  The hook of a nested federation
sees either every member exactly once or none at all, and none only if the request to the federation, or
to one above it, was abandoned before it ran.  What the hook sees of a member is the outcome that its
unit reports, which is the one that the federation takes if it takes one, and nothing is seen later than
the end of the call.

This holds of the course of a call of backends, and of every order of steps.
-/

namespace QueryFederation

variable {Answer : Type}

/-! ## The course of a call -/

namespace Session

/-- What the unit of a member reports: what it delivers, or a cancellation if it is still at work when the
session ends. -/
def reportedOutcome (request : Request Answer) (session : Session) (delivery : Delivery Answer) :
    Except Fault Answer :=
  if delivery.moment.isBefore (session.stop request) then delivery.outcome else .error .cancelled

theorem observe_status (request : Request Answer) (session : Session) (place : Backend.Place)
    (index : Nat) (delivery : Delivery Answer) :
    (observe place index request.kind session.start (session.stop request) delivery).status =
      CallStatus.ofOutcome (session.reportedOutcome request delivery) := by
  unfold observe reportedOutcome
  split <;> rfl

end Session

namespace Backend

/-- The session at a place in a call by a caller. -/
def sessionOfCall? (request : Request Answer) (cancel : Option Cancellation) (root : Backend)
    (place : Place) : Option Session :=
  root.sessionAt? request (cancel.map Cancellation.moment) .caller Moment.callStart place

/-- Whether, in a call by a caller, the request at a place or one above it is abandoned before it has
run. -/
def IsAbandonedInCall (request : Request Answer) (cancel : Option Cancellation) (root : Backend)
    (place : Place) : Prop :=
  root.IsAbandoned request (cancel.map Cancellation.moment) .caller Moment.callStart place

/-- What the hook at a place is told in a call by a caller. -/
def rowOfCall (request : Request Answer) (cancel : Option Cancellation) (root : Backend)
    (place : Place) : List Observation :=
  observationsAt place (root.traceOfCall request cancel).observations

theorem rowOfCall_eq (request : Request Answer) (cancel : Option Cancellation) (root : Backend)
    (place : Place) :
    root.rowOfCall request cancel place =
      match root.sessionOfCall? request cancel place with
      | some session => session.row request place
      | none => [] :=
  observationsAt_trace request (cancel.map Cancellation.moment) .caller Moment.callStart [] place root

/-- That the hooks in a tree are told of every member once in the course of a call, and of what the
federations take. -/
structure RecordedOnce (request : Request Answer) (cancel : Option Cancellation) (root : Backend) :
    Prop where
  complete : forall {place : Place} {settings : FederationSettings} {members : List Backend},
    root.at? place = some (.federation settings members) -> settings.isObserved = true ->
      ¬ root.IsAbandonedInCall request cancel place ->
        (root.rowOfCall request cancel place).map Observation.index = List.range members.length
  absent : forall {place : Place} {settings : FederationSettings} {members : List Backend},
    root.at? place = some (.federation settings members) ->
      root.IsAbandonedInCall request cancel place -> root.rowOfCall request cancel place = []
  root_asked : ¬ root.IsAbandonedInCall request cancel []
  told : forall {observation : Observation},
    observation ∈ (root.traceOfCall request cancel).observations ->
      observation.kind = request.kind ∧
        observation.moment.millis ≤ (root.call request cancel).moment.millis
  status : forall {place : Place} {session : Session} {index : Nat} {delivery : Delivery Answer},
    root.sessionOfCall? request cancel place = some session ->
      session.settings.isObserved = true -> (session.deliveries request)[index]? = some delivery ->
        exists observation, (root.rowOfCall request cancel place)[index]? = some observation ∧
          observation.status = CallStatus.ofOutcome (session.reportedOutcome request delivery)
  -- Once a nested federation is cancelled it takes nothing any more, because its request is dropped.
  taken : forall {place : Place} {session : Session} {index : Nat} {delivery : Delivery Answer},
    root.sessionOfCall? request cancel place = some session ->
      (session.drained request)[index]? = some delivery ->
        place = [] ∨ delivery.moment.IsBeforeCancel session.cancel ->
          (session.deliveries request)[index]? = some delivery ∧
            session.reportedOutcome request delivery = delivery.outcome

theorem mem_row {request : Request Answer} {place : Place} {session : Session}
    {observation : Observation} (isSeen : observation ∈ session.row request place) :
    exists (index : Nat) (delivery : Delivery Answer), observation =
      observe place index request.kind session.start (session.stop request) delivery := by
  unfold Session.row at isSeen
  split at isSeen
  · rcases List.mem_mapIdx.mp isSeen with ⟨index, inside, same⟩
    exact ⟨index, _, same.symm⟩
  · cases isSeen

theorem observe_kind (place : Place) (index : Nat) (kind : ApiKind) (start stop : Moment)
    (delivery : Delivery Answer) : (observe place index kind start stop delivery).kind = kind := by
  unfold observe
  split <;> rfl

/-- The caller's collection does not begin at the moment of a cancellation. -/
theorem callStart_ne_cancellation (cancellation : Cancellation) :
    Moment.callStart ≠ cancellation.moment := by
  cases cancellation with
  | upFront => decide
  | after millis =>
      intro same
      cases congrArg Moment.phase same

/-- Whatever a hook is told in a call is told of the operation of the call, and not later than in the
millisecond in which the call ends. -/
theorem told_of_mem_observations {request : Request Answer} {cancel : Option Cancellation}
    {root : Backend} {observation : Observation}
    (isSeen : observation ∈ (root.traceOfCall request cancel).observations) :
    observation.kind = request.kind ∧
      observation.moment.millis ≤ (root.call request cancel).moment.millis := by
  have inRow : observation ∈ root.rowOfCall request cancel observation.place :=
    List.mem_filter.mpr ⟨isSeen, decide_eq_true rfl⟩
  rw [rowOfCall_eq] at inRow
  cases isSession : root.sessionOfCall? request cancel observation.place with
  | none =>
      rw [isSession] at inRow
      cases inRow
  | some session =>
      rw [isSession] at inRow
      rcases mem_row inRow with ⟨index, delivery, same⟩
      rw [same]
      exact ⟨observe_kind _ _ _ _ _ _,
        Nat.le_trans (session.observe_millis_le request _ _ _) (stop_millis_le isSession)⟩

/-- The caller's collection drains nothing that is delivered when it has been cancelled. -/
theorem isBeforeCancel_of_drained_root {request : Request Answer} {cancel : Option Cancellation}
    {root : Backend} {session : Session}
    (isSession : root.sessionOfCall? request cancel [] = some session) {delivery : Delivery Answer}
    (isDrained : delivery ∈ session.drained request) :
    delivery.moment.IsBeforeCancel session.cancel := by
  cases root with
  | federation settings members =>
      cases isSession
      intro cancelled isCancel
      rcases Option.map_eq_some_iff.mp isCancel with ⟨cancellation, _, rfl⟩
      unfold Session.drained at isDrained
      dsimp only at isDrained isCancel
      rw [isCancel] at isDrained
      exact Progress.isBeforeCancel_of_drained (isRound_cancellation cancellation)
        (callStart_ne_cancellation cancellation) isDrained
  | _ => cases isSession

/-- What a session takes before it is cancelled is what the unit reports. -/
theorem reportedOutcome_of_drained {request : Request Answer} {cancel : Option Cancellation}
    {root : Backend} {place : Place} {session : Session}
    (isSession : root.sessionOfCall? request cancel place = some session)
    {delivery : Delivery Answer} (isDrained : delivery ∈ session.drained request)
    (before : delivery.moment.IsBeforeCancel session.cancel) :
    session.reportedOutcome request delivery = delivery.outcome := by
  have collection := start_collectionTurn Moment.isCollectionTurn_callStart isSession
  have early := Session.lt_stop_of_drained request collection isDrained before
  unfold Session.reportedOutcome
  rw [if_pos ((Moment.isBefore_iff _ _).mpr early)]

theorem recordedOnce_federation (request : Request Answer) (cancel : Option Cancellation)
    (settings : FederationSettings) (members : List Backend) :
    RecordedOnce request cancel (federation settings members) where
  complete := by
    intro place inner innerMembers there observed present
    have hasSession := mt (sessionAt?_eq_none_iff there).mp present
    rcases Option.ne_none_iff_exists'.mp hasSession with ⟨session, isSession⟩
    have same := at?_of_sessionAt? isSession
    cases there.symm.trans same
    rw [rowOfCall_eq, sessionOfCall?, isSession]
    exact session.row_indices request place observed
  absent := by
    intro place inner innerMembers there abandoned
    rw [rowOfCall_eq, sessionOfCall?, (sessionAt?_eq_none_iff there).mpr abandoned]
  root_asked := by
    rintro ⟨above, index, session, isPrefix, _⟩
    exact List.concat_ne_nil _ _ (List.prefix_nil.mp isPrefix)
  told := told_of_mem_observations
  status := by
    intro place session index delivery isSession observed delivers
    rw [rowOfCall_eq, isSession]
    refine ⟨observe place index request.kind session.start (session.stop request) delivery, ?_,
      session.observe_status request place index delivery⟩
    rw [Session.row_getElem? request place observed, delivers]
    rfl
  taken := by
    intro place session index delivery isSession drains inTime
    have isDrained := List.mem_of_getElem? drains
    refine ⟨Session.deliveries_getElem?_of_drained drains, ?_⟩
    rcases inTime with rfl | before
    · exact reportedOutcome_of_drained isSession isDrained
        (isBeforeCancel_of_drained_root isSession isDrained)
    · exact reportedOutcome_of_drained isSession isDrained before

end Backend

/-! ## Every order of steps -/

namespace Schedule

/-- That the hooks have been told of every member once in a situation of a call that ended at a time, and
of what the federations have taken. -/
structure ReportedOnce (plan : Plan Answer) (now : Situation Answer) (endMillis : Nat) : Prop where
  complete : forall {place : Backend.Place} {settings : FederationSettings}
    {members : List (Respondent Answer)},
    plan.root.at? place = some (.federation settings members) -> settings.isObserved = true ->
      (now.requests place).HasBegun -> (row now place).Perm (List.range members.length)
  absent : forall {place : Backend.Place} {settings : FederationSettings}
    {members : List (Respondent Answer)},
    plan.root.at? place = some (.federation settings members) -> settings.isObserved = true ->
      ¬ (now.requests place).HasBegun -> row now place = []
  root_begun : (now.requests []).HasBegun
  begun_iff : forall {place : Backend.Place} {respondent : Respondent Answer},
    plan.root.at? place = some respondent ->
      ((now.requests place).HasBegun <->
        forall above, above <+: place -> now.requests above ≠ .skipped)
  told : forall {report : Report}, report ∈ now.reports ->
    report.kind = plan.request.kind ∧ report.millis ≤ endMillis ∧
      exists outcome, now.units report.place report.index = .reported outcome ∧
        report.status = CallStatus.ofOutcome outcome
  taken : forall {place : Backend.Place} {index : Nat} {outcome : Except Fault Answer},
    (now.taken place)[index]? = some outcome -> now.units place index = .reported outcome

theorem Settled.reportedOnce {plan : Plan Answer} {now : Situation Answer} {millis : Nat}
    {ending : Ending Answer} (reachable : Reachable plan now) (settled : Settled now)
    (ended : now.requests [] = .ended millis ending) : ReportedOnce plan now millis where
  complete := fun there observed begun =>
    settled.row_perm_of_begun reachable.coherent reachable.accounted there observed begun
  absent := fun there observed idle =>
    row_of_idle reachable.coherent reachable.accounted there observed idle
  root_begun := ended ▸ trivial
  begun_iff := by
    intro place respondent there
    constructor
    · intro begun above isPrefix skipped
      have beganAbove := reachable.coherent.begun_of_prefix isPrefix begun
      exact absurd beganAbove (skipped ▸ id)
    · intro unskipped
      by_contra idle
      rcases settled.exists_skipped reachable.coherent place there idle with
          ⟨above, isPrefix, skipped⟩
      exact unskipped above isPrefix skipped
  told := by
    intro report isReport
    rcases reachable.accounted.told isReport with ⟨_, _, outcome, _, _, reported, kind, status, _⟩
    exact ⟨kind, (reachable.reportsInTime millis ending ended).1 report isReport, outcome, reported,
      status⟩
  taken := reachable.coherent.reported_of_taken

end Schedule

open Schedule

/-- In one call of a federation every hook is told of each member once or not at all, of what the member's
unit reported, and no later than the call ends.  This holds of the course of the call and comes about in
every order of steps. -/
theorem hooks_told_once (operation : ReadOperation) (settings : FederationSettings)
    (members : List Backend) (respondents : List (Respondent operation.Answer))
    (cancel : Option Cancellation) :
    let request := operation.request
    let plan : Plan operation.Answer := ⟨request, .federation settings respondents, cancel⟩
    Backend.RecordedOnce request cancel (.federation settings members) ∧
      Inevitably plan
        (fun now => exists millis ending, now.requests [] = .ended millis ending ∧
          ReportedOnce plan now millis ∧
          forall later, Relation.ReflTransGen (Next plan) now later -> later.reports = now.reports)
        (Situation.start cancel) := by
  intro request plan
  refine ⟨Backend.recordedOnce_federation request cancel settings members, ?_⟩
  apply (inevitably_settled request settings respondents cancel).imp
  rintro now ⟨reachable, settled⟩
  rcases reachable.coherent.root_ended settled.isOver with ⟨millis, ending, ended⟩
  refine ⟨millis, ending, ended, settled.reportedOnce reachable ended, ?_⟩
  intro later run
  exact (settled.reports_stay run).2

end QueryFederation
