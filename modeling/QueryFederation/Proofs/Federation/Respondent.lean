import QueryFederation.Proofs.Federation.Verdict

/-!
# What a tree of backends comes to

For one request a tree of backends is a tree of respondents: each leaf has an ending, a delay, and a
disposition to give up when it is cancelled.  A leaf may end in every way and after every delay, so
this says more than mocks, fixtures and crashing clients can do.

The ending and the time of a respondent are computed from the leaves upwards, by the verdict on the
members' outcomes at each federation.  There is no cancellation and no order of events in them.  The
course of a call, and every order in which its units may run, is measured against these two.
-/

namespace QueryFederation

/-- What a backend without members does with a request. -/
structure Script (Answer : Type) where
  delayMillis : Nat
  ending : Ending Answer
  /-- Whether it may give up once it is cancelled. -/
  heedsCancellation : Bool

/-- A tree of backends, as one request meets it. -/
inductive Respondent (Answer : Type) where
  | leaf (script : Script Answer)
  | federation (settings : FederationSettings) (members : List (Respondent Answer))

namespace Respondent

variable {Answer : Type}

mutual

/-- How a respondent ends when nobody cancels it. -/
def ending (request : Request Answer) : Respondent Answer -> Ending Answer
  | leaf script => script.ending
  | federation settings members =>
      .returned (Verdict.ofOutcomes (request.merge settings.window) request.empty
        (outcomesFrom request 0 members))

/-- The outcomes of members, from an index on. -/
def outcomesFrom (request : Request Answer) (index : Nat) :
    List (Respondent Answer) -> List (Except Fault Answer)
  | [] => []
  | member :: members =>
      (ending request member).outcome index :: outcomesFrom request (index + 1) members

end

/-- The outcomes of the members of a federation. -/
def outcomes (request : Request Answer) (members : List (Respondent Answer)) :
    List (Except Fault Answer) :=
  outcomesFrom request 0 members

mutual

/-- When a respondent ends when nobody cancels it. -/
def finishMillis (request : Request Answer) : Respondent Answer -> Nat
  | leaf script => script.delayMillis
  | federation settings members =>
      Verdict.delayMillis (request.merge settings.window) (outcomes request members)
        (finishes request members)

/-- When members end. -/
def finishes (request : Request Answer) : List (Respondent Answer) -> List Nat
  | [] => []
  | member :: members => finishMillis request member :: finishes request members

end

/-- The respondent at a place of the tree. -/
def at? : Respondent Answer -> Backend.Place -> Option (Respondent Answer)
  | respondent, [] => some respondent
  | leaf _, _ :: _ => none
  | federation _ members, index :: place => (members[index]?).bind fun member => member.at? place

/-! ## Members by index -/

theorem outcomesFrom_length (request : Request Answer) (index : Nat)
    (members : List (Respondent Answer)) :
    (outcomesFrom request index members).length = members.length := by
  induction members generalizing index with
  | nil => rfl
  | cons member rest inductionHypothesis =>
      simp only [outcomesFrom, List.length_cons, inductionHypothesis]

theorem outcomes_length (request : Request Answer) (members : List (Respondent Answer)) :
    (outcomes request members).length = members.length :=
  outcomesFrom_length request 0 members

theorem outcomesFrom_getElem? (request : Request Answer) (offset index : Nat)
    (members : List (Respondent Answer)) :
    (outcomesFrom request offset members)[index]? =
      members[index]?.map fun member => (ending request member).outcome (offset + index) := by
  induction members generalizing offset index with
  | nil => rfl
  | cons member rest inductionHypothesis =>
      cases index with
      | zero => rfl
      | succ index =>
          rw [outcomesFrom, List.getElem?_cons_succ, List.getElem?_cons_succ, inductionHypothesis,
            Nat.add_right_comm, Nat.add_assoc]

/-- The outcome of a member is its ending as the unit of its index reports it. -/
theorem outcomes_getElem? (request : Request Answer) (members : List (Respondent Answer))
    (index : Nat) :
    (outcomes request members)[index]? =
      members[index]?.map fun member => (ending request member).outcome index := by
  unfold outcomes
  rw [outcomesFrom_getElem?, Nat.zero_add]

theorem finishes_eq_map (request : Request Answer) (members : List (Respondent Answer)) :
    finishes request members = members.map (finishMillis request) := by
  induction members with
  | nil => rfl
  | cons member rest inductionHypothesis =>
      rw [finishes, List.map_cons, inductionHypothesis]

theorem at?_nil (respondent : Respondent Answer) : respondent.at? [] = some respondent := by
  cases respondent <;> rfl

/-- The respondents one level below a place are the members of the federation there. -/
theorem at?_concat (root : Respondent Answer) (place : Backend.Place) (index : Nat) :
    root.at? (place ++ [index]) =
      match root.at? place with
      | some (federation _ members) => members[index]?
      | _ => none := by
  induction place generalizing root with
  | nil =>
      cases root with
      | leaf script => rfl
      | federation settings members =>
          change (members[index]?.bind fun member => member.at? []) = members[index]?
          simp only [at?_nil]
          cases members[index]? <;> rfl
  | cons head place inductionHypothesis =>
      cases root with
      | leaf script => rfl
      | federation settings members =>
          change (members[head]?.bind fun member => member.at? (place ++ [index])) = _
          rw [at?]
          cases members[head]? with
          | none => rfl
          | some member => exact inductionHypothesis member

end Respondent

namespace Backend

variable {Answer : Type}

mutual

/-- A backend, as a request meets it.  A mock without delay answers before it looks at its
cancellation, and a client that crashes never looks at it. -/
def respondent (request : Request Answer) : Backend -> Respondent Answer
  | .mock scripted =>
      .leaf ⟨scripted.delayMillis, .returned (scripted.outcome request),
        decide (scripted.delayMillis ≠ 0) && !scripted.ignoresCancellation⟩
  | .fixture _ snapshot => .leaf ⟨0, .returned (.ok (request.ofFixture snapshot)), true⟩
  | .crashing message => .leaf ⟨0, .crashed message, false⟩
  | .federation settings members => .federation settings (respondents request members)

/-- Backends, as a request meets them. -/
def respondents (request : Request Answer) : List Backend -> List (Respondent Answer)
  | [] => []
  | member :: members => respondent request member :: respondents request members

end

theorem respondents_eq_map (request : Request Answer) (members : List Backend) :
    respondents request members = members.map (respondent request) := by
  induction members with
  | nil => rfl
  | cons member rest inductionHypothesis =>
      rw [respondents, List.map_cons, inductionHypothesis]

end Backend
end QueryFederation
