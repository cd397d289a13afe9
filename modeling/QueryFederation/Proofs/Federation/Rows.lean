import QueryFederation.Proofs.Federation.Sessions

/-!
# The rows of a trace

The trace of a call is made up of the rows of its sessions.  A row has one observation for each member
of the federation, in the order of the members, made of what the unit of the member delivered.
-/

namespace QueryFederation

variable {Answer : Type}

/-- What the hook of a federation is told in a session. -/
def Session.row (request : Request Answer) (place : Backend.Place) (session : Session) :
    List Observation :=
  if session.settings.isObserved then
    (session.deliveries request).mapIdx fun index delivery =>
      observe place index request.kind session.start (session.stop request) delivery
  else []

/-! ## The places of observations -/

namespace Backend

mutual

/-- What is seen in a trace is seen at its place or below. -/
theorem place_prefix_of_trace (request : Request Answer) (cancel : Option Moment)
    (collector : Collector) (start : Moment) (place : Place) (backend : Backend)
    {observation : Observation}
    (isSeen : observation ∈ (backend.trace request cancel collector start place).observations) :
    place <+: observation.place := by
  cases backend with
  | mock scripted => cases isSeen
  | fixture name snapshot => cases isSeen
  | crashing message => cases isSeen
  | federation settings members =>
      rcases place_cases_of_traceOfMembers request cancel settings.isObserved start _ place 0 members
        isSeen with here | ⟨index, _, below⟩
      · exact here ▸ List.prefix_rfl
      · exact (List.prefix_append _ _).trans below

/-- What is seen of members from an index on is seen at the federation or below one of these. -/
theorem place_cases_of_traceOfMembers (request : Request Answer) (cancel : Option Moment)
    (isObserved : Bool) (start stop : Moment) (place : Place) (first : Nat) (members : List Backend)
    {observation : Observation}
    (isSeen : observation ∈
      (traceOfMembers request cancel isObserved start stop place first members).observations) :
    observation.place = place ∨
      exists index, first ≤ index ∧ place ++ [index] <+: observation.place := by
  cases members with
  | nil => cases isSeen
  | cons member rest =>
      rcases List.mem_append.mp isSeen with early | later
      · rcases List.mem_append.mp early with own | within
        · dsimp only at own
          split at own
          · rw [List.mem_singleton.mp own]
            unfold observe
            split <;> exact Or.inl rfl
          · cases own
        · split at within
          · exact Or.inr ⟨first, Nat.le_refl _,
              place_prefix_of_trace request (some stop) .unit start.next.next (place ++ [first])
                member within⟩
          · cases within
      · rcases place_cases_of_traceOfMembers request cancel isObserved start stop place (first + 1)
          rest later with here | ⟨index, notBefore, below⟩
        · exact Or.inl here
        · exact Or.inr ⟨index, Nat.le_of_succ_le notBefore, below⟩

end

/-- The observations at a place that are among some observations. -/
def observationsAt (place : Place) (observations : List Observation) : List Observation :=
  observations.filter fun observation => observation.place = place

theorem observationsAt_append (place : Place) (first second : List Observation) :
    observationsAt place (first ++ second) =
      observationsAt place first ++ observationsAt place second :=
  List.filter_append first second

theorem observationsAt_eq_nil {place : Place} {observations : List Observation}
    (elsewhere : forall observation, observation ∈ observations -> observation.place ≠ place) :
    observationsAt place observations = [] := by
  apply List.filter_eq_nil_iff.mpr
  intro observation isSeen here
  exact elsewhere observation isSeen (of_decide_eq_true here)

theorem observe_place (place : Place) (index : Nat) (kind : ApiKind) (start stop : Moment)
    (delivery : Delivery Answer) :
    (observe place index kind start stop delivery).place = place := by
  unfold observe
  split <;> rfl

/-! ## Rows -/

section Members

variable (request : Request Answer) (cancel : Option Moment) (isObserved : Bool)
  (start stop : Moment) (place : Place)

theorem traceOfMembers_cons (index : Nat) (member : Backend) (rest : List Backend) :
    (traceOfMembers request cancel isObserved start stop place index (member :: rest)).observations =
      (if isObserved then
        [observe place index request.kind start stop
          (unitDelivery cancel start index (answer request cancel .unit start.next.next member))]
      else []) ++
      (if start.next.isBefore stop then
        (trace request (some stop) .unit start.next.next (place ++ [index]) member).observations
      else []) ++
      (traceOfMembers request cancel isObserved start stop place (index + 1) rest).observations := by
  rw [traceOfMembers]
  cases start.next.isBefore stop <;> rfl

/-- What is seen below a member is not seen at the federation itself, nor below another member. -/
theorem observationsAt_below_eq_nil (index : Nat) (member : Backend) {other : Place}
    (apart : ¬ place ++ [index] <+: other) :
    observationsAt other
        (if start.next.isBefore stop then
          (trace request (some stop) .unit start.next.next (place ++ [index]) member).observations
        else []) = [] := by
  apply observationsAt_eq_nil
  intro observation isSeen same
  split at isSeen
  · apply apart
    rw [← same]
    exact place_prefix_of_trace request (some stop) .unit start.next.next (place ++ [index]) member
      isSeen
  · cases isSeen

/-- What the hook of a federation is told of the members. -/
theorem observationsAt_self (index : Nat) (members : List Backend) :
    observationsAt place
        (traceOfMembers request cancel isObserved start stop place index members).observations =
      if isObserved then
        (deliveries request cancel start index members).mapIdx fun offset delivery =>
          observe place (index + offset) request.kind start stop delivery
      else [] := by
  induction members generalizing index with
  | nil => cases isObserved <;> rfl
  | cons member rest inductionHypothesis =>
      have apart : ¬ place ++ [index] <+: place := by
        intro isPrefix
        have notLonger := isPrefix.length_le
        rw [List.length_append] at notLonger
        exact Nat.not_succ_le_self _ notLonger
      rw [traceOfMembers_cons, observationsAt_append, observationsAt_append,
        observationsAt_below_eq_nil request start stop place index member apart, List.append_nil,
        inductionHypothesis, deliveries, List.mapIdx_cons]
      cases isObserved with
      | false => rfl
      | true =>
          have here : observationsAt place
              [observe place index request.kind start stop
                (unitDelivery cancel start index
                  (answer request cancel .unit start.next.next member))] =
              [observe place index request.kind start stop
                (unitDelivery cancel start index
                  (answer request cancel .unit start.next.next member))] := by
            apply List.filter_eq_self.mpr
            intro observation isSeen
            rw [List.mem_singleton.mp isSeen, observe_place]
            exact decide_eq_true rfl
          simp only [if_true, here, List.singleton_append, Nat.add_zero, Nat.add_right_comm,
            Nat.add_assoc]

/-- What is seen below a member is seen in the trace of the request to that member. -/
theorem observationsAt_member (offset index : Nat) (members : List Backend) (inner : Place) :
    observationsAt (place ++ (offset + index) :: inner)
        (traceOfMembers request cancel isObserved start stop place offset members).observations =
      match members[index]? with
      | some member =>
          observationsAt (place ++ (offset + index) :: inner)
            (if start.next.isBefore stop then
              (trace request (some stop) .unit start.next.next (place ++ [offset + index])
                member).observations
            else [])
      | none => [] := by
  induction members generalizing offset index with
  | nil => rfl
  | cons member rest inductionHypothesis =>
      have notOwn : observationsAt (place ++ (offset + index) :: inner)
          (if isObserved then
            [observe place offset request.kind start stop
              (unitDelivery cancel start offset
                (answer request cancel .unit start.next.next member))]
          else []) = [] := by
        apply observationsAt_eq_nil
        intro observation isSeen same
        split at isSeen
        · rw [List.mem_singleton.mp isSeen, observe_place] at same
          exact List.cons_ne_nil _ _ (List.self_eq_append_right.mp same)
        · cases isSeen
      rw [traceOfMembers_cons, observationsAt_append, observationsAt_append, notOwn, List.nil_append]
      cases index with
      | zero =>
          -- What the later members see is below their own indices.
          have notLater : observationsAt (place ++ (offset + 0) :: inner)
              (traceOfMembers request cancel isObserved start stop place (offset + 1)
                rest).observations = [] := by
            apply observationsAt_eq_nil
            intro observation isSeen same
            rcases place_cases_of_traceOfMembers request cancel isObserved start stop place
              (offset + 1) rest isSeen with here | ⟨other, notBefore, below⟩
            · rw [here] at same
              exact List.cons_ne_nil _ _ (List.self_eq_append_right.mp same)
            · rw [same] at below
              have heads := (List.prefix_append_right_inj place).mp below
              have sameIndex := (List.cons_prefix_cons.mp heads).1
              omega
          rw [notLater, List.append_nil]
          rfl
      | succ index =>
          have apart : ¬ place ++ [offset] <+: place ++ (offset + (index + 1)) :: inner := by
            intro isPrefix
            have heads := (List.prefix_append_right_inj place).mp isPrefix
            have same := (List.cons_prefix_cons.mp heads).1
            omega
          rw [observationsAt_below_eq_nil request start stop place offset member apart,
            List.nil_append, ← Nat.add_assoc, Nat.add_right_comm, inductionHypothesis,
            List.getElem?_cons_succ]

end Members

/-- The observations at a place are the row of the session there; without a session there are none. -/
theorem observationsAt_trace (request : Request Answer) (cancel : Option Moment)
    (collector : Collector) (start : Moment) (place inner : Place) (backend : Backend) :
    observationsAt (place ++ inner)
        (backend.trace request cancel collector start place).observations =
      match backend.sessionAt? request cancel collector start inner with
      | some session => session.row request (place ++ inner)
      | none => [] := by
  induction inner generalizing backend cancel collector start place with
  | nil =>
      cases backend with
      | federation settings members =>
          have own := observationsAt_self request cancel settings.isObserved start
            (Session.stop request ⟨cancel, collector, start, settings, members⟩) place 0 members
          simp only [Nat.zero_add] at own
          rw [List.append_nil]
          exact own
      | _ => rfl
  | cons index inner inductionHypothesis =>
      cases backend with
      | federation settings members =>
          have below := observationsAt_member request cancel settings.isObserved start
            (Session.stop request ⟨cancel, collector, start, settings, members⟩) place 0 index members
            inner
          rw [Nat.zero_add] at below
          refine Eq.trans below ?_
          rw [sessionAt?]
          unfold Session.asksMembers
          dsimp only
          by_cases runs : start.next.isBefore
              (Session.stop request ⟨cancel, collector, start, settings, members⟩) = true
          · rw [if_pos runs]
            cases members[index]? with
            | none => rfl
            | some member =>
                dsimp only [Option.bind_some]
                rw [if_pos runs, List.append_cons]
                exact inductionHypothesis _ .unit start.next.next (place ++ [index]) member
          · rw [if_neg runs]
            cases members[index]? with
            | none => rfl
            | some member =>
                dsimp only
                rw [if_neg runs]
                rfl
      | _ => rfl

end Backend

/-! ## What a row holds -/

namespace Session

theorem row_getElem? (request : Request Answer) (place : Backend.Place) {session : Session}
    (observed : session.settings.isObserved = true) (index : Nat) :
    (session.row request place)[index]? = (session.deliveries request)[index]?.map fun delivery =>
      observe place index request.kind session.start (session.stop request) delivery := by
  rw [row, if_pos observed, List.getElem?_mapIdx]

theorem observe_index (place : Backend.Place) (index : Nat) (kind : ApiKind) (start stop : Moment)
    (delivery : Delivery Answer) : (observe place index kind start stop delivery).index = index := by
  unfold observe
  split <;> rfl

/-- A row has one observation for each member, in the order of the members. -/
theorem row_indices (request : Request Answer) (place : Backend.Place) {session : Session}
    (observed : session.settings.isObserved = true) :
    (session.row request place).map Observation.index = List.range session.members.length := by
  have count : (session.deliveries request).length = session.members.length :=
    Backend.deliveries_length request session.cancel session.start 0 session.members
  apply List.ext_getElem?
  intro index
  rw [List.getElem?_map, row_getElem? request place observed, ← count]
  by_cases inside : index < (session.deliveries request).length
  · rw [List.getElem?_eq_getElem inside, List.getElem?_range inside, Option.map_some,
      Option.map_some, observe_index]
  · have outside := Nat.le_of_not_lt inside
    rw [List.getElem?_eq_none outside, List.getElem?_eq_none (by rwa [List.length_range])]
    rfl

/-- What the hook is told comes in the millisecond in which the session ends, or before. -/
theorem observe_millis_le (request : Request Answer) (session : Session) (place : Backend.Place)
    (index : Nat) (delivery : Delivery Answer) :
    (observe place index request.kind session.start (session.stop request) delivery).moment.millis ≤
      (session.stop request).millis := by
  unfold observe
  split
  · rename_i before
    exact Moment.millis_le_of_le (le_of_lt ((Moment.isBefore_iff _ _).mp before))
  · change (Moment.later (session.stop request).next session.start.next).millis ≤ _
    have begun := Moment.millis_le_of_le (session.start_le_stop request)
    rw [Moment.later_eq_max, Moment.max_millis]
    exact max_le (Nat.le_refl _) begun

end Session
end QueryFederation
