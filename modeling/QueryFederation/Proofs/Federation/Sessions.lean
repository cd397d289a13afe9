import Mathlib.Data.List.Induction
import QueryFederation.Proofs.Federation.Drained

/-!
# The calls of the federations in a tree

A call of a federation leads to calls of the federations among its members, and these to further ones.
Each of them is a session: it begins at a moment, knows of a cancellation, and ends.  The session of a
nested federation is cancelled at the latest when that of the federation above ends, and there is none
at all if the unit above is cancelled before the request has run.
-/

namespace QueryFederation

variable {Answer : Type}

/-- The call of one federation in a tree. -/
structure Session where
  cancel : Option Moment
  collector : Collector
  start : Moment
  settings : FederationSettings
  members : List Backend

namespace Session

/-- When a session ends. -/
def stop (request : Request Answer) (session : Session) : Moment :=
  (Backend.answer request session.cancel session.collector session.start
    (.federation session.settings session.members)).moment

/-- What the units of a session deliver. -/
def deliveries (request : Request Answer) (session : Session) : List (Delivery Answer) :=
  Backend.deliveries request session.cancel session.start 0 session.members

/-- Whether the requests to the members get to run: a unit that is cancelled when it starts abandons its
request before. -/
def asksMembers (request : Request Answer) (session : Session) : Bool :=
  session.start.next.isBefore (session.stop request)

/-- The session that a request to a member begins, if the member is a federation. -/
def below (request : Request Answer) (session : Session) (settings : FederationSettings)
    (members : List Backend) : Session :=
  ⟨some (session.stop request), .unit, session.start.next.next, settings, members⟩

end Session

namespace Backend

/-- The session of the federation at a place, if it comes to one. -/
def sessionAt? (request : Request Answer) (cancel : Option Moment) (collector : Collector)
    (start : Moment) : Backend -> Place -> Option Session
  | .federation settings members, [] => some ⟨cancel, collector, start, settings, members⟩
  | .federation settings members, index :: place =>
      let session : Session := ⟨cancel, collector, start, settings, members⟩
      if session.asksMembers request then
        (members[index]?).bind fun member =>
          member.sessionAt? request (some (session.stop request)) .unit start.next.next place
      else none
  | _, _ => none

theorem deliveries_length (request : Request Answer) (cancel : Option Moment) (start : Moment)
    (index : Nat) (members : List Backend) :
    (deliveries request cancel start index members).length = members.length := by
  induction members generalizing index with
  | nil => rfl
  | cons member rest inductionHypothesis =>
      rw [deliveries, List.length_cons, List.length_cons, inductionHypothesis]

/-! ## Which sessions there are -/

/-- The backend at a place of a tree. -/
def at? : Backend -> Place -> Option Backend
  | backend, [] => some backend
  | .federation _ members, index :: place => (members[index]?).bind fun member => member.at? place
  | _, _ :: _ => none

theorem at?_concat (root : Backend) (place : Place) (index : Nat) :
    root.at? (place ++ [index]) =
      match root.at? place with
      | some (.federation _ members) => members[index]?
      | _ => none := by
  induction place generalizing root with
  | nil =>
      cases root with
      | federation settings members =>
          change (members[index]?.bind fun member => member.at? []) = members[index]?
          cases members[index]? with
          | none => rfl
          | some member => cases member <;> rfl
      | _ => rfl
  | cons head place inductionHypothesis =>
      cases root with
      | federation settings members =>
          change (members[head]?.bind fun member => member.at? (place ++ [index])) = _
          rw [at?]
          cases members[head]? with
          | none => rfl
          | some member => exact inductionHypothesis member
      | _ => rfl

variable {request : Request Answer} {cancel : Option Moment} {collector : Collector}
  {start : Moment} {backend : Backend} {place : Place} {session : Session}

/-- A session below another one is begun by a request to a member, which has to get to run. -/
theorem sessionAt?_concat (request : Request Answer) (cancel : Option Moment)
    (collector : Collector) (start : Moment) (backend : Backend) (place : Place) (index : Nat) :
    backend.sessionAt? request cancel collector start (place ++ [index]) =
      match backend.sessionAt? request cancel collector start place with
      | some session =>
          if session.asksMembers request then
            (session.members[index]?).bind fun member =>
              member.sessionAt? request (some (session.stop request)) .unit session.start.next.next []
          else none
      | none => none := by
  induction place generalizing cancel collector start backend with
  | nil => cases backend <;> rfl
  | cons head place inductionHypothesis =>
      cases backend with
      | federation settings members =>
          rw [List.cons_append, sessionAt?, sessionAt?]
          split
          · cases members[head]? with
            | none => rfl
            | some member => exact inductionHypothesis _ .unit start.next.next member
          · rfl
      | _ => rfl

/-- A session is that of the federation at its place. -/
theorem at?_of_sessionAt? (isSession : backend.sessionAt? request cancel collector start place =
      some session) :
    backend.at? place = some (.federation session.settings session.members) := by
  induction place generalizing cancel collector start backend with
  | nil =>
      cases backend with
      | federation settings members =>
          cases isSession
          rfl
      | _ => cases isSession
  | cons head place inductionHypothesis =>
      cases backend with
      | federation settings members =>
          rw [sessionAt?] at isSession
          split at isSession
          · rcases Option.bind_eq_some_iff.mp isSession with ⟨member, isMember, below⟩
            rw [at?, isMember]
            exact inductionHypothesis below
          · cases isSession
      | _ => cases isSession

/-- Where there is a session there are sessions all the way up. -/
theorem exists_sessionAt?_of_prefix {above : Place} (isPrefix : above <+: place)
    (isSession : backend.sessionAt? request cancel collector start place = some session) :
    exists upper, backend.sessionAt? request cancel collector start above = some upper := by
  induction place using List.reverseRecOn generalizing session with
  | nil =>
      rw [List.prefix_nil.mp isPrefix]
      exact ⟨session, isSession⟩
  | append_singleton place index inductionHypothesis =>
      rcases List.prefix_concat_iff.mp isPrefix with same | shorter
      · exact ⟨session, same ▸ isSession⟩
      · rw [sessionAt?_concat] at isSession
        cases upper : backend.sessionAt? request cancel collector start place with
        | none =>
            rw [upper] at isSession
            cases isSession
        | some upperSession => exact inductionHypothesis shorter upper

/-- Whether a request at a place, or one above it, is abandoned by its unit before it has run. -/
def IsAbandoned (request : Request Answer) (cancel : Option Moment) (collector : Collector)
    (start : Moment) (backend : Backend) (place : Place) : Prop :=
  exists above index session, above ++ [index] <+: place ∧
    backend.sessionAt? request cancel collector start above = some session ∧
    session.asksMembers request = false

/-- A federation in the tree has no session exactly if a unit abandoned the request before it ran. -/
theorem sessionAt?_eq_none_iff {settings : FederationSettings} {members : List Backend}
    (there : backend.at? place = some (.federation settings members)) :
    backend.sessionAt? request cancel collector start place = none <->
      IsAbandoned request cancel collector start backend place := by
  constructor
  · intro none
    induction place using List.reverseRecOn generalizing settings members with
    | nil =>
        cases there
        cases none
    | append_singleton place index inductionHypothesis =>
        rw [at?_concat] at there
        rw [sessionAt?_concat] at none
        cases upper : backend.sessionAt? request cancel collector start place with
        | none =>
            cases parent : backend.at? place with
            | none =>
                rw [parent] at there
                cases there
            | some parentBackend =>
                rw [parent] at there
                cases parentBackend with
                | federation parentSettings parentMembers =>
                    rcases inductionHypothesis parent upper with
                        ⟨above, other, session, isPrefix, rest⟩
                    exact ⟨above, other, session, isPrefix.trans (List.prefix_append _ _), rest⟩
                | _ => cases there
        | some session =>
            refine ⟨place, index, session, List.prefix_rfl, upper, ?_⟩
            rw [at?_of_sessionAt? upper] at there
            rw [upper] at none
            dsimp only at there none
            cases asks : session.asksMembers request with
            | false => rfl
            | true =>
                rw [if_pos asks, there] at none
                cases none
  · rintro ⟨above, index, session, isPrefix, upper, idle⟩
    cases below : backend.sessionAt? request cancel collector start place with
    | none => rfl
    | some inner =>
        rcases exists_sessionAt?_of_prefix isPrefix below with ⟨next, isNext⟩
        rw [sessionAt?_concat, upper] at isNext
        dsimp only at isNext
        rw [idle] at isNext
        cases isNext

end Backend

/-! ## The times of sessions -/

/-- A collection that begins no later than the millisecond of its cancellation ends in it at the
latest. -/
theorem Progress.conclusion_millis_le {merge : Nat -> Answer -> Answer -> Except Fault Answer}
    {empty : Answer} {collector : Collector} {cancelled : Moment}
    {deliveries : List (Delivery Answer)} {progress : Progress Answer}
    (notLate : progress.moment.millis ≤ cancelled.millis) :
    (progress.conclusion merge empty collector (some cancelled) deliveries).moment.millis ≤
      cancelled.millis := by
  induction deliveries generalizing progress with
  | nil => exact notLate
  | cons first rest inductionHypothesis =>
      have inMillis (inTime : cancelledBefore? (some cancelled)
          (progress.takenAt collector first.moment) = none) :
          (progress.takenAt collector first.moment).millis ≤ cancelled.millis :=
        Moment.millis_le_of_le (cancelledBefore?_some_eq_none_iff.mp inTime)
      rw [conclusion_cons]
      cases taking merge collector (some cancelled) progress first with
      | cut late took =>
          rcases cancelledBefore?_eq_some_iff.mp late with ⟨isCancel, _⟩
          cases isCancel
          rw [took]
          change (Moment.later cancelled progress.moment).millis ≤ _
          rw [Moment.later_eq_max, Moment.max_millis]
          exact max_le (Nat.le_refl _) notLate
      | ends inTime took moment =>
          rw [took]
          dsimp only
          rw [moment]
          exact inMillis inTime
      | goesOn inTime took moment =>
          rw [took]
          apply inductionHypothesis
          rw [moment]
          exact inMillis inTime

namespace Session

/-- The call of the federation, as the collection of what its units deliver. -/
theorem stop_eq (request : Request Answer) (session : Session) :
    session.stop request = ((Progress.start session.start).conclusion
      (fun _ => request.merge session.settings.window) request.empty session.collector session.cancel
      (session.deliveries request)).moment := rfl

theorem start_le_stop (request : Request Answer) (session : Session) :
    session.start ≤ session.stop request := by
  rw [stop_eq]
  exact Progress.moment_le_conclusion session.cancel (Progress.start session.start) _

/-- A nested session ends in the millisecond of the session above at the latest. -/
theorem below_stop_le (request : Request Answer) (session : Session) (settings : FederationSettings)
    (members : List Backend) :
    ((session.below request settings members).stop request).millis ≤
      (session.stop request).millis := by
  have begun := Moment.millis_le_of_le (session.start_le_stop request)
  rw [stop_eq]
  exact Progress.conclusion_millis_le begun

end Session

namespace Backend

variable {request : Request Answer} {cancel : Option Moment} {collector : Collector}
  {start : Moment} {backend : Backend} {place : Place} {session : Session}

/-- A session somewhere in the tree ends in the millisecond in which the call ends, or before. -/
theorem stop_millis_le (isSession : backend.sessionAt? request cancel collector start place =
      some session) :
    (session.stop request).millis ≤ (backend.answer request cancel collector start).moment.millis := by
  induction place using List.reverseRecOn generalizing session with
  | nil =>
      cases backend with
      | federation settings members =>
          cases isSession
          exact Nat.le_refl _
      | _ => cases isSession
  | append_singleton place index inductionHypothesis =>
      rw [sessionAt?_concat] at isSession
      cases upper : backend.sessionAt? request cancel collector start place with
      | none =>
          rw [upper] at isSession
          cases isSession
      | some upperSession =>
          rw [upper] at isSession
          dsimp only at isSession
          split at isSession
          · rcases Option.bind_eq_some_iff.mp isSession with ⟨member, _, below⟩
            cases member with
            | federation settings members =>
                cases below
                exact Nat.le_trans (upperSession.below_stop_le request settings members)
                  (inductionHypothesis upper)
            | _ => cases below
          · cases isSession

/-- Every session begins in a turn of collectors, like the call. -/
theorem start_collectionTurn (collection : start.IsCollectionTurn)
    (isSession : backend.sessionAt? request cancel collector start place = some session) :
    session.start.IsCollectionTurn := by
  induction place using List.reverseRecOn generalizing session with
  | nil =>
      cases backend with
      | federation settings members =>
          cases isSession
          exact collection
      | _ => cases isSession
  | append_singleton place index inductionHypothesis =>
      rw [sessionAt?_concat] at isSession
      cases upper : backend.sessionAt? request cancel collector start place with
      | none =>
          rw [upper] at isSession
          cases isSession
      | some upperSession =>
          rw [upper] at isSession
          dsimp only at isSession
          split at isSession
          · rcases Option.bind_eq_some_iff.mp isSession with ⟨member, _, below⟩
            cases member with
            | federation settings members =>
                cases below
                exact (inductionHypothesis upper).next.next
            | _ => cases below
          · cases isSession

end Backend

/-! ## What a session has drained -/

namespace Session

/-- The deliveries that the federation takes out of the mailboxes of its members. -/
def drained (request : Request Answer) (session : Session) : List (Delivery Answer) :=
  (Progress.start session.start).drained (fun _ => request.merge session.settings.window)
    session.collector session.cancel (session.deliveries request)

/-- The answer of a federation comes from what it has drained. -/
theorem ending_eq_verdictOf (request : Request Answer) (session : Session) :
    (Backend.answer request session.cancel session.collector session.start
      (.federation session.settings session.members)).ending =
      .returned (Progress.verdictOf (request.merge session.settings.window) request.empty
        ((session.drained request).map Delivery.outcome) session.members.length) := by
  have nothing := Progress.Holds.start (request.merge session.settings.window) session.start
  have verdict := nothing.conclusion_of_drained request.empty session.collector session.cancel
    (session.deliveries request)
  have count : (session.deliveries request).length = session.members.length :=
    Backend.deliveries_length request session.cancel session.start 0 session.members
  rw [List.length_nil, Nat.zero_add, count] at verdict
  exact congrArg Ending.returned verdict

/-- What is drained, and was delivered before the session was cancelled, was delivered before the session
ended. -/
theorem lt_stop_of_drained (request : Request Answer) {session : Session}
    (collection : session.start.IsCollectionTurn) {delivery : Delivery Answer}
    (isDrained : delivery ∈ session.drained request)
    (before : delivery.moment.IsBeforeCancel session.cancel) :
    delivery.moment < session.stop request := by
  rw [stop_eq]
  exact Progress.lt_conclusion_of_drained
    (Backend.deliveries_deliveryTurn request session.cancel collection 0 session.members)
    (fun _ delivers => delivers.not_collection collection) isDrained before

theorem deliveries_getElem?_of_drained {request : Request Answer} {session : Session}
    {delivery : Delivery Answer} {index : Nat}
    (isDrained : (session.drained request)[index]? = some delivery) :
    (session.deliveries request)[index]? = some delivery := by
  have front : session.drained request <+: session.deliveries request := Progress.drained_prefix _ _
  rcases front with ⟨rest, same⟩
  rw [← same, List.getElem?_append_left (List.getElem?_eq_some_iff.mp isDrained).1]
  exact isDrained

end Session
end QueryFederation
