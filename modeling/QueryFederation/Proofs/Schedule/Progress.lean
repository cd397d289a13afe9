import Mathlib.Algebra.GroupWithZero.Nat
import Mathlib.Algebra.Order.BigOperators.Group.List
import Mathlib.Algebra.Order.Group.Nat
import QueryFederation.Proofs.Schedule.Coherence

/-!
# Every order of steps leads on

No step can be taken for ever.  Each place of the tree has a weight, which counts what its request and
its units may still do, and every step of work makes the sum of the weights smaller.  So work comes to
an end at every instant, and a call in which the time is bounded until a goal is reached reaches it,
whatever the order of its steps.
-/

namespace QueryFederation

namespace Respondent

variable {Answer : Type}

mutual

/-- The places of a tree that itself is at a place. -/
def places (place : Backend.Place) : Respondent Answer -> List Backend.Place
  | leaf _ => [place]
  | federation _ members => place :: placesOfMembers place 0 members

/-- The places in members, from an index on. -/
def placesOfMembers (place : Backend.Place) (index : Nat) :
    List (Respondent Answer) -> List Backend.Place
  | [] => []
  | member :: members =>
      places (place ++ [index]) member ++ placesOfMembers place (index + 1) members

end

/-- The number of members. -/
def size : Respondent Answer -> Nat
  | leaf _ => 0
  | federation _ members => members.length

theorem self_mem_places (respondent : Respondent Answer) (place : Backend.Place) :
    place ∈ respondent.places place := by
  cases respondent <;> exact List.mem_cons_self

theorem mem_placesOfMembers {members : List (Respondent Answer)} {index : Nat}
    {member : Respondent Answer} (there : members[index]? = some member) (offset : Nat)
    {place inner : Backend.Place} (inside : inner ∈ member.places (place ++ [offset + index])) :
    inner ∈ placesOfMembers place offset members := by
  induction members generalizing index offset with
  | nil => cases there
  | cons first rest inductionHypothesis =>
      cases index with
      | zero =>
          cases there
          exact List.mem_append_left _ inside
      | succ index =>
          apply List.mem_append_right
          apply inductionHypothesis there
          rwa [Nat.add_assoc, Nat.add_comm 1 index]

/-- A place that has a respondent is one of the places of the tree. -/
theorem mem_places {root respondent : Respondent Answer} {inner : Backend.Place}
    (there : root.at? inner = some respondent) (place : Backend.Place) :
    place ++ inner ∈ root.places place := by
  induction inner generalizing root place with
  | nil =>
      rw [List.append_nil]
      exact root.self_mem_places place
  | cons index inner inductionHypothesis =>
      cases root with
      | leaf script => cases there
      | federation settings members =>
          rcases Option.bind_eq_some_iff.mp there with ⟨member, isMember, below⟩
          apply List.mem_cons_of_mem
          apply mem_placesOfMembers isMember
          have inside := inductionHypothesis below (place ++ [index])
          rw [← List.append_cons] at inside
          rwa [Nat.zero_add]

end Respondent

namespace Schedule

variable {Answer : Type} {plan : Plan Answer} {now later : Situation Answer}

/-! ## What is left to do -/

/-- How many steps a request of a respondent of a size may still take, if so many outcomes are taken. -/
def RequestPhase.remaining (size taken : Nat) : RequestPhase Answer -> Nat
  | .unstarted => size + 2
  | .sleeping => 1
  | .collecting _ _ => size - taken + 1
  | .ended _ _ => 0
  | .dropped => 0
  | .skipped => 0

/-- How many steps a unit may still take. -/
def UnitPhase.remaining : UnitPhase Answer -> Nat
  | .absent => 3
  | .spawned => 2
  | .waiting => 1
  | .reported _ => 0

theorem UnitPhase.remaining_le_absent (phase : UnitPhase Answer) :
    phase.remaining ≤ (absent : UnitPhase Answer).remaining := by
  cases phase with
  | absent => exact Nat.le_refl 3
  | spawned => exact Nat.le_succ 2
  | waiting => exact Nat.le_add_left 1 2
  | reported outcome => exact Nat.zero_le 3

/-- How many steps are left for a request to a respondent at a place, and for its units. -/
def weight (now : Situation Answer) (place : Backend.Place) (respondent : Respondent Answer) : Nat :=
  (now.requests place).remaining respondent.size (now.taken place).length +
    ((List.range respondent.size).map fun index => (now.units place index).remaining).sum

/-- How many steps of work a call can still take. -/
def remaining (plan : Plan Answer) (now : Situation Answer) : Nat :=
  ((plan.root.places []).map fun place => ((plan.root.at? place).map (weight now place)).getD 0).sum +
    if now.isCancelled then 0 else 1

theorem RequestPhase.remaining_of_isOver {phase : RequestPhase Answer} (isOver : phase.IsOver)
    (size taken : Nat) : phase.remaining size taken = 0 := by
  cases phase with
  | unstarted => exact absurd isOver id
  | sleeping => exact absurd isOver id
  | collecting merged lastFault => exact absurd isOver id
  | _ => rfl

/-! ## Every step leaves less to do -/

theorem request_remaining_le (coherent : Coherent plan now) (step : Work plan now later)
    (place : Backend.Place) (size : Nat) :
    (later.requests place).remaining size (later.taken place).length ≤
      (now.requests place).remaining size (now.taken place).length := by
  have ofOver (isOver : (later.requests place).IsOver) :
      (later.requests place).remaining size (later.taken place).length ≤
        (now.requests place).remaining size (now.taken place).length := by
    rw [RequestPhase.remaining_of_isOver isOver]
    exact Nat.zero_le _
  cases step.phaseChange place with
  | unchanged same sameTaken => rw [same, sameTaken]
  | @starts respondent there asked fresh begun spawned sameTaken =>
      rw [begun, fresh, sameTaken, coherent.taken_of_fresh (fresh ▸ id)]
      cases respondent with
      | leaf script => exact Nat.le_add_left 1 (size + 1)
      | federation settings members => exact Nat.le_succ (size + 1)
  | takes there collecting extended collects oneMore =>
      rw [collects, collecting, oneMore, List.length_append]
      exact Nat.succ_le_succ (Nat.sub_le_sub_left (Nat.le_add_right _ _) size)
  | ends begun pending ended => exact ofOver (ended ▸ trivial)
  | drops isMember withdrawn dropped =>
      exact ofOver (dropped ▸ RequestPhase.afterDrop_isOver _)

theorem unit_remaining_le (coherent : Coherent plan now) (step : Work plan now later)
    (place : Backend.Place) (index : Nat) :
    (later.units place index).remaining ≤ (now.units place index).remaining := by
  cases step.unitChange place index with
  | unchanged same => rw [same]
  | spawns there asked fresh begun spawned =>
      have absent : now.units place index = .absent := by
        by_contra present
        exact absurd (coherent.begun_of_unit present) (fresh ▸ id)
      rw [absent]
      exact UnitPhase.remaining_le_absent _
  | starts spawned waits =>
      rw [spawned, waits]
      exact Nat.le_succ 1
  | delivers there waiting ended standing reported =>
      rw [reported]
      exact Nat.zero_le _
  | abandons there waiting withdrawn dropped reported =>
      rw [reported]
      exact Nat.zero_le _

theorem weight_le (coherent : Coherent plan now) (step : Work plan now later)
    (place : Backend.Place) (respondent : Respondent Answer) :
    weight later place respondent ≤ weight now place respondent := by
  apply Nat.add_le_add (request_remaining_le coherent step place respondent.size)
  apply List.sum_le_sum
  intro index _
  exact unit_remaining_le coherent step place index

theorem weight_lt_of_request (coherent : Coherent plan now) (step : Work plan now later)
    {place : Backend.Place} {respondent : Respondent Answer}
    (less : (later.requests place).remaining respondent.size (later.taken place).length <
      (now.requests place).remaining respondent.size (now.taken place).length) :
    weight later place respondent < weight now place respondent := by
  apply Nat.add_lt_add_of_lt_of_le less
  apply List.sum_le_sum
  intro index _
  exact unit_remaining_le coherent step place index

theorem weight_lt_of_unit (coherent : Coherent plan now) (step : Work plan now later)
    {place : Backend.Place} {respondent : Respondent Answer} {index : Nat}
    (inside : index < respondent.size)
    (less : (later.units place index).remaining < (now.units place index).remaining) :
    weight later place respondent < weight now place respondent := by
  apply Nat.add_lt_add_of_le_of_lt (request_remaining_le coherent step place respondent.size)
  apply List.sum_lt_sum
  · intro other _
    exact unit_remaining_le coherent step place other
  · exact ⟨index, List.mem_range.mpr inside, less⟩

/-- A request that is over after a step, and was not before, made some place lighter. -/
theorem weight_lt_of_over (coherent : Coherent plan now) (step : Work plan now later)
    {place : Backend.Place} {respondent : Respondent Answer}
    (pending : ¬ (now.requests place).IsOver) (isOver : (later.requests place).IsOver) :
    weight later place respondent < weight now place respondent := by
  apply weight_lt_of_request coherent step
  rw [RequestPhase.remaining_of_isOver isOver]
  cases phase : now.requests place with
  | unstarted => exact Nat.succ_pos _
  | sleeping => exact Nat.succ_pos _
  | collecting merged lastFault => exact Nat.succ_pos _
  | ended millis ending => exact absurd (phase ▸ trivial) pending
  | dropped => exact absurd (phase ▸ trivial) pending
  | skipped => exact absurd (phase ▸ trivial) pending

/-- A unit that takes a step makes its place lighter. -/
theorem lighter_of_unit (coherent : Coherent plan now) (step : Work plan now later)
    (place : Backend.Place) (index : Nat)
    (less : (later.units place index).remaining < (now.units place index).remaining)
    (present : now.units place index ≠ .absent) :
    exists at' respondent, plan.root.at? at' = some respondent ∧
      weight later at' respondent < weight now at' respondent := by
  rcases coherent.federation_of_unit present with ⟨settings, members, there, inside⟩
  exact ⟨place, _, there, weight_lt_of_unit coherent step inside less⟩

/-- Every step but the cancellation makes some place of the tree lighter. -/
theorem lighter (coherent : Coherent plan now) (step : Work plan now later) :
    (exists place respondent, plan.root.at? place = some respondent ∧
      weight later place respondent < weight now place respondent) ∨
      (now.isCancelled = false ∧ later.isCancelled = true) := by
  have whole := step
  cases step with
  | @startLeaf place script there asked fresh =>
      refine Or.inl ⟨place, _, there, weight_lt_of_request coherent whole ?_⟩
      rw [now.setRequest_requests, if_pos rfl, fresh]
      exact Nat.lt_add_left _ Nat.one_lt_two
  | @startFederation place settings members there asked fresh =>
      refine Or.inl ⟨place, _, there, weight_lt_of_request coherent whole ?_⟩
      rw [now.fanOut_requests, if_pos rfl, fresh]
      exact Nat.lt_succ_of_le (Nat.succ_le_succ (Nat.sub_le _ _))
  | @startUnit place index spawned =>
      refine Or.inl (lighter_of_unit coherent whole place index ?_ ?_)
      · rw [now.setUnit_units, if_pos ⟨rfl, rfl⟩, spawned]
        exact Nat.one_lt_two
      · exact fun absent => nomatch spawned.symm.trans absent
  | @leafEnds place script there asleep due =>
      refine Or.inl ⟨place, _, there, weight_lt_of_over coherent whole (asleep ▸ id) ?_⟩
      rw [now.setRequest_requests, if_pos rfl]
      exact trivial
  | @leafYields place script there asleep heeds withdrawn =>
      refine Or.inl ⟨place, _, there, weight_lt_of_over coherent whole (asleep ▸ id) ?_⟩
      rw [now.setRequest_requests, if_pos rfl]
      exact trivial
  | @unitDelivers place settings members index millis ending there waiting ended standing =>
      refine Or.inl (lighter_of_unit coherent whole place index ?_ ?_)
      · rw [now.report_units, if_pos ⟨rfl, rfl⟩, waiting]
        exact Nat.one_pos
      · exact fun absent => nomatch waiting.symm.trans absent
  | @unitAbandons place settings members index there waiting withdrawn =>
      refine Or.inl (lighter_of_unit coherent whole place index ?_ ?_)
      · rw [Situation.report_units, if_pos ⟨rfl, rfl⟩, waiting]
        exact Nat.one_pos
      · exact fun absent => nomatch waiting.symm.trans absent
  | @takes place settings members merged next lastFault outcome there collecting standing delivered
      extended =>
      have present : now.units place (now.taken place).length ≠ .absent :=
        fun absent => nomatch delivered.symm.trans absent
      rcases coherent.federation_of_unit present with ⟨_, _, same, inside⟩
      cases there.symm.trans same
      refine Or.inl ⟨place, _, there, weight_lt_of_request coherent whole ?_⟩
      rw [now.take_requests, now.take_taken, if_pos rfl, if_pos rfl, collecting, List.length_append]
      exact Nat.succ_lt_succ (Nat.sub_lt_sub_left inside (Nat.lt_succ_self _))
  | @mergeFails place settings members merged lastFault outcome fault there collecting standing
      delivered failed =>
      refine Or.inl ⟨place, _, there, weight_lt_of_over coherent whole (collecting ▸ id) ?_⟩
      rw [now.take_requests, if_pos rfl]
      exact trivial
  | @withdraws place settings members merged lastFault there collecting unfinished withdrawn =>
      refine Or.inl ⟨place, _, there, weight_lt_of_over coherent whole (collecting ▸ id) ?_⟩
      rw [now.setRequest_requests, if_pos rfl]
      exact trivial
  | @concludes place settings members merged lastFault there collecting finished =>
      refine Or.inl ⟨place, _, there, weight_lt_of_over coherent whole (collecting ▸ id) ?_⟩
      rw [now.setRequest_requests, if_pos rfl]
      exact trivial
  | cancels planned pending => exact Or.inr ⟨pending, rfl⟩

theorem weights_le (coherent : Coherent plan now) (step : Work plan now later)
    (place : Backend.Place) :
    ((plan.root.at? place).map (weight later place)).getD 0 ≤
      ((plan.root.at? place).map (weight now place)).getD 0 := by
  cases plan.root.at? place with
  | none => exact Nat.le_refl _
  | some respondent => exact weight_le coherent step place respondent

/-- Every step of work leaves less work. -/
theorem remaining_lt (coherent : Coherent plan now) (step : Work plan now later) :
    remaining plan later < remaining plan now := by
  unfold remaining
  rcases lighter coherent step with ⟨place, respondent, there, less⟩ | ⟨pending, cancelled⟩
  · apply Nat.add_lt_add_of_lt_of_le
    · apply List.sum_lt_sum
      · intro other _
        exact weights_le coherent step other
      · refine ⟨place, Respondent.mem_places there [], ?_⟩
        rw [there]
        exact less
    · rcases step.isCancelled_cases with same | ⟨_, cancelled⟩
      · rw [same]
      · rw [cancelled]
        exact Nat.zero_le _
  · apply Nat.add_lt_add_of_le_of_lt
    · apply List.sum_le_sum
      intro other _
      exact weights_le coherent step other
    · rw [pending, cancelled]
      decide

/-! ## Runs -/

/-- What a call may come to. -/
def Reachable (plan : Plan Answer) (now : Situation Answer) : Prop :=
  Relation.ReflTransGen (Next plan) (Situation.start plan.cancel) now

/-- What holds at the start and is kept by every step holds of every situation of the call. -/
theorem Reachable.invariant (property : Situation Answer -> Prop) (reachable : Reachable plan now)
    (initially : property (Situation.start plan.cancel))
    (kept : forall {before after : Situation Answer}, Reachable plan before -> property before ->
      Next plan before after -> property after) : property now := by
  induction reachable with
  | refl => exact initially
  | tail run step inductionHypothesis => exact kept run inductionHypothesis step

theorem Coherent.next (coherent : Coherent plan now) (step : Next plan now later) :
    Coherent plan later := by
  cases step with
  | work step => exact coherent.work step
  | pass quiet => exact coherent.pass

theorem Reachable.coherent (reachable : Reachable plan now) : Coherent plan now :=
  reachable.invariant _ (coherent_start plan) fun _ coherent step => coherent.next step

/-- A call never gets stuck. -/
theorem exists_next (plan : Plan Answer) (now : Situation Answer) : exists later, Next plan now later := by
  by_cases quiet : IsQuiet plan now
  · exact ⟨_, .pass quiet⟩
  · simp only [IsQuiet, not_forall, not_not] at quiet
    rcases quiet with ⟨later, step⟩
    exact ⟨later, .work step⟩

/-- What leads to a goal leads to everything that follows from it. -/
theorem Inevitably.imp {goal weaker : Situation Answer -> Prop}
    (follows : forall now, goal now -> weaker now) (inevitable : Inevitably plan goal now) :
    Inevitably plan weaker now := by
  induction inevitable with
  | already reached => exact .already (follows _ reached)
  | later possible _ inductionHypothesis => exact .later possible inductionHypothesis

/-- A goal is reached in every order of steps if the time is bounded as long as it is not reached. -/
theorem Reachable.inevitably {goal : Situation Answer -> Prop} (bound : Nat)
    (inTime : forall now : Situation Answer, Reachable plan now -> ¬ goal now -> now.millis ≤ bound)
    {now : Situation Answer} (reachable : Reachable plan now) : Inevitably plan goal now := by
  by_cases reached : goal now
  · exact .already reached
  · refine .later (exists_next plan now) ?_
    intro later step
    exact Reachable.inevitably bound inTime (reachable.tail step)
termination_by (bound + 1 - now.millis, remaining plan now)
decreasing_by
  cases step with
  | work step =>
      rw [step.sameMillis]
      exact Prod.Lex.right _ (remaining_lt reachable.coherent step)
  | pass quiet =>
      apply Prod.Lex.left
      have notLate := inTime now reachable reached
      change bound + 1 - (now.millis + 1) < bound + 1 - now.millis
      omega

end Schedule
end QueryFederation
