import QueryFederation.Proofs.Schedule.Reports

/-!
# One thread

The steps of a call are finer than what a single thread does.  On one thread a task that is given its
turn runs until it has to wait, and nothing else runs meanwhile.  That matters for the unit of a member:
in its first turn it both spawns the request and looks at the token, so the request cannot run between
the two, and if the token is cancelled the unit abandons the request before it has run and reports.

A turn is therefore a step of somebody else, or the whole first turn of a unit.  Every course of turns
is an order of steps, so whatever holds of all orders of steps holds of it.  The converse fails: where
other threads may run a request as soon as it is spawned, a call that was cancelled beforehand may still
reach members.
-/

namespace QueryFederation
namespace Schedule

variable {Answer : Type} {plan : Plan Answer} {now later : Situation Answer}

/-- What may happen next on one thread. -/
inductive Turn (plan : Plan Answer) (now : Situation Answer) : Situation Answer -> Prop where
  /-- Something other than the first turn of a unit. -/
  | other {later : Situation Answer} (step : Next plan now later)
      (unitsWait : forall place index,
        now.units place index = .spawned -> later.units place index = .spawned) :
      Turn plan now later
  /-- A unit starts its request and waits for it. -/
  | starts {place : Backend.Place} {index : Nat} (spawned : now.units place index = .spawned)
      (standing : ¬ now.IsWithdrawn (place ++ [index])) :
      Turn plan now (now.setUnit place index .waiting)
  /-- A unit finds its token cancelled, and abandons the request that it has just spawned. -/
  | abandons {place : Backend.Place} {settings : FederationSettings}
      {members : List (Respondent Answer)} {index : Nat}
      (there : plan.root.at? place = some (.federation settings members))
      (spawned : now.units place index = .spawned)
      (withdrawn : now.IsWithdrawn (place ++ [index])) :
      Turn plan now ((now.drop (place ++ [index])).report plan.request.kind settings place index
        (.error .cancelled))

/-- Whether every course of turns from a situation on leads to a goal. -/
inductive InTurns (plan : Plan Answer) (goal : Situation Answer -> Prop) :
    Situation Answer -> Prop where
  | already {now : Situation Answer} (reached : goal now) : InTurns plan goal now
  | later {now : Situation Answer} (possible : exists next, Turn plan now next)
      (always : forall next, Turn plan now next -> InTurns plan goal next) : InTurns plan goal now

/-- What a call on one thread may come to. -/
def ReachableInTurns (plan : Plan Answer) (now : Situation Answer) : Prop :=
  Relation.ReflTransGen (Turn plan) (Situation.start plan.cancel) now

/-! ## Turns are steps -/

theorem Situation.setUnit_setUnit (situation : Situation Answer) (place : Backend.Place) (index : Nat)
    (first second : UnitPhase Answer) :
    (situation.setUnit place index first).setUnit place index second =
      situation.setUnit place index second := by
  unfold setUnit
  dsimp only
  rw [Function.update_idem, Function.update_self, Function.update_idem]

/-- A unit that abandons its request does so in two steps: it starts the request and drops it. -/
theorem Work.abandons_started {place : Backend.Place} {settings : FederationSettings}
    {members : List (Respondent Answer)} {index : Nat}
    (there : plan.root.at? place = some (.federation settings members))
    (withdrawn : now.IsWithdrawn (place ++ [index])) :
    Work plan (now.setUnit place index .waiting)
      ((now.drop (place ++ [index])).report plan.request.kind settings place index
        (.error .cancelled)) := by
  have waiting : (now.setUnit place index .waiting).units place index = .waiting :=
    (now.setUnit_units _ _ _ _ _).trans (if_pos ⟨rfl, rfl⟩)
  have withdrawnStill : (now.setUnit place index .waiting).IsWithdrawn (place ++ [index]) := withdrawn
  have step := Work.unitAbandons there waiting withdrawnStill
  have same : ((now.setUnit place index .waiting).drop (place ++ [index])).setUnit place index
        (.reported (.error .cancelled)) =
      (now.drop (place ++ [index])).setUnit place index (.reported (.error .cancelled)) :=
    (now.drop (place ++ [index])).setUnit_setUnit place index .waiting (.reported (.error .cancelled))
  unfold Situation.report at step ⊢
  rw [same] at step
  exact step

theorem Turn.run (turn : Turn plan now later) : Relation.ReflTransGen (Next plan) now later := by
  cases turn with
  | other step => exact .single step
  | starts spawned => exact .single (.work (.startUnit spawned))
  | abandons there spawned withdrawn =>
      exact (Relation.ReflTransGen.single (.work (.startUnit spawned))).tail
        (.work (.abandons_started there withdrawn))

theorem reflTransGen_next_of_turns (turns : Relation.ReflTransGen (Turn plan) now later) :
    Relation.ReflTransGen (Next plan) now later := by
  induction turns with
  | refl => exact .refl
  | tail _ turn inductionHypothesis => exact inductionHypothesis.trans turn.run

theorem ReachableInTurns.reachable (reachable : ReachableInTurns plan now) : Reachable plan now :=
  reflTransGen_next_of_turns reachable

/-- There is always somebody whose turn it is. -/
theorem Coherent.exists_turn (coherent : Coherent plan now) : exists later, Turn plan now later := by
  by_cases someSpawned : exists place index, now.units place index = .spawned
  · rcases someSpawned with ⟨place, index, spawned⟩
    by_cases withdrawn : now.IsWithdrawn (place ++ [index])
    · rcases coherent.federation_of_unit (fun absent => nomatch spawned.symm.trans absent) with
          ⟨settings, members, there, _⟩
      exact ⟨_, .abandons there spawned withdrawn⟩
    · exact ⟨_, .starts spawned withdrawn⟩
  · rcases exists_next plan now with ⟨later, step⟩
    refine ⟨later, .other step ?_⟩
    intro place index spawned
    exact absurd ⟨place, index, spawned⟩ someSpawned

/-- What every order of steps leads to, and no step leaves, every course of turns leads to. -/
theorem Inevitably.inTurns {goal : Situation Answer -> Prop}
    (stays : forall {before after : Situation Answer}, goal before -> Next plan before after ->
      goal after)
    (inevitable : Inevitably plan goal now) (coherent : Coherent plan now) :
    InTurns plan goal now := by
  induction inevitable with
  | already reached => exact .already reached
  | @later now possible _ inductionHypothesis =>
      refine .later coherent.exists_turn ?_
      intro next turn
      cases turn with
      | other step => exact inductionHypothesis next step (coherent.next step)
      | starts spawned =>
          have step : Next plan _ _ := .work (.startUnit spawned)
          exact inductionHypothesis _ step (coherent.next step)
      | @abandons place settings members index there spawned withdrawn =>
          -- Half of the turn is a step, and the other half is a turn of its own.
          have first : Next plan _ _ := .work (.startUnit spawned)
          have second : Next plan _ _ := .work (.abandons_started there withdrawn)
          cases inductionHypothesis _ first (coherent.next first) with
          | already reached => exact .already (stays reached second)
          | later _ always =>
              apply always
              refine .other second ?_
              intro other otherIndex stillSpawned
              rw [now.setUnit_units] at stillSpawned
              rw [Situation.report_units]
              by_cases own : other = place ∧ otherIndex = index
              · rw [if_pos own] at stillSpawned
                cases stillSpawned
              · rw [if_neg own] at stillSpawned ⊢
                exact stillSpawned

/-- A goal that every course of turns leads to is reached in turns. -/
theorem InTurns.along {goal : Situation Answer -> Prop} (inTurns : InTurns plan goal now)
    (reachable : ReachableInTurns plan now) :
    InTurns plan (fun reached => ReachableInTurns plan reached ∧ goal reached) now := by
  induction inTurns with
  | already reached => exact .already ⟨reachable, reached⟩
  | later possible _ inductionHypothesis =>
      refine .later possible ?_
      intro next turn
      exact inductionHypothesis next turn (reachable.tail turn)

theorem InTurns.imp {goal weaker : Situation Answer -> Prop}
    (follows : forall now, goal now -> weaker now) (inTurns : InTurns plan goal now) :
    InTurns plan weaker now := by
  induction inTurns with
  | already reached => exact .already (follows _ reached)
  | later possible _ inductionHypothesis => exact .later possible inductionHypothesis

end Schedule
end QueryFederation
