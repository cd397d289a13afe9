import QueryFederation.Proofs.Federation.Forms
import QueryFederation.Proofs.Federation.Respondent

/-!
# Members in groups

Members of a federation may be put into federations of their own, and these into others, to any depth.
What the outcomes of the members come to depends on the groups in one respect only: a group that fails
wraps its fault once more.  The reason is that three things can be computed part by part, namely what the
answers come to, whether there are any, and the last outcome of all.

An empty group is not a group: it would answer where none of its members does.
-/

namespace QueryFederation

variable {Answer Entry : Type}

/-- What is left of a fault when all total failures around it are taken off. -/
def Fault.rootCause : Fault -> Fault
  | .allBackendsFailed last => last.rootCause
  | fault => fault

/-- A member, or a group of groupings with the settings of its federation. -/
inductive Grouping (Member : Type) where
  | single (member : Member)
  | group (settings : FederationSettings) (first : Grouping Member)
      (rest : List (Grouping Member))

namespace Grouping

variable {Member : Type}

mutual

/-- The members of a grouping, in their order. -/
def members : Grouping Member -> List Member
  | single member => [member]
  | group _ first rest => members first ++ membersOfAll rest

/-- The members of groupings, in their order. -/
def membersOfAll : List (Grouping Member) -> List Member
  | [] => []
  | grouping :: groupings => members grouping ++ membersOfAll groupings

end

mutual

/-- A grouping with a federation for each of its groups. -/
def federate (federation : FederationSettings -> List Member -> Member) : Grouping Member -> Member
  | single member => member
  | group settings first rest =>
      federation settings (federate federation first :: federateAll federation rest)

/-- Groupings with a federation for each of their groups. -/
def federateAll (federation : FederationSettings -> List Member -> Member) :
    List (Grouping Member) -> List Member
  | [] => []
  | grouping :: groupings => federate federation grouping :: federateAll federation groupings

end

/-- Members that are not grouped. -/
theorem membersOfAll_map_single (members : List Member) :
    membersOfAll (members.map single) = members := by
  induction members with
  | nil => rfl
  | cons member rest inductionHypothesis =>
      rw [List.map_cons, membersOfAll, inductionHypothesis]
      rfl

theorem federateAll_map_single (federation : FederationSettings -> List Member -> Member)
    (members : List Member) : federateAll federation (members.map single) = members := by
  induction members with
  | nil => rfl
  | cons member rest inductionHypothesis =>
      rw [List.map_cons, federateAll, inductionHypothesis]
      rfl

theorem federateAll_ne_nil (federation : FederationSettings -> List Member -> Member)
    {groupings : List (Grouping Member)} (nonempty : groupings ≠ []) :
    federateAll federation groupings ≠ [] := by
  cases groupings with
  | nil => exact absurd rfl nonempty
  | cons first rest => exact List.cons_ne_nil _ _

theorem members_ne_nil (grouping : Grouping Member) : grouping.members ≠ [] := by
  cases grouping with
  | single member => exact List.cons_ne_nil _ _
  | group settings first rest => exact List.append_ne_nil_of_left_ne_nil (members_ne_nil first) _

theorem membersOfAll_ne_nil {groupings : List (Grouping Member)} (nonempty : groupings ≠ []) :
    membersOfAll groupings ≠ [] := by
  cases groupings with
  | nil => exact absurd rfl nonempty
  | cons first rest => exact List.append_ne_nil_of_left_ne_nil first.members_ne_nil _

end Grouping

/-- That answers of one form are joined in the same way under all windows, and by parts. -/
structure Request.Regroups (request : Request Answer) (form : Entry -> Answer)
    (join : Entry -> Entry -> Entry) : Prop where
  merges : forall window, request.MergesAs window form join
  assoc : forall first second third,
    join (join first second) third = join first (join second third)

namespace Verdict

/-- Whether an outcome is what other outcomes come to, up to how often a total failure is wrapped. -/
inductive SumsUp (form : Entry -> Answer) (join : Entry -> Entry -> Entry)
    (outcomes : List (Except Fault Answer)) : Except Fault Answer -> Prop where
  | answered {entries : List Entry} {sum : Entry} (same : answers outcomes = entries.map form)
      (merged : Merge.running join entries = some sum) : SumsUp form join outcomes (.ok (form sum))
  | failed {last fault : Fault} (none : answers outcomes = [])
      (isLast : outcomes.getLast? = some (.error last))
      (sameRoot : fault.rootCause = last.rootCause) : SumsUp form join outcomes (.error fault)

variable {form : Entry -> Answer} {join : Entry -> Entry -> Entry}
  {outcomes : List (Except Fault Answer)} {parts : List (List (Except Fault Answer))}
  {sums : List (Except Fault Answer)}

/-- An outcome sums up itself. -/
theorem SumsUp.singleton {outcome : Except Fault Answer}
    (formed : forall answer, outcome = .ok answer -> exists entry, form entry = answer) :
    SumsUp form join [outcome] outcome := by
  cases outcome with
  | ok answer =>
      rcases formed answer rfl with ⟨entry, rfl⟩
      have alone : answers [.ok (form entry)] = [entry].map form := rfl
      exact .answered alone rfl
  | error fault => exact .failed rfl rfl rfl

/-- The answers of parts, beside those that the parts come to. -/
theorem exists_entries_of_sums (summed : List.Forall₂ (SumsUp form join) parts sums) :
    exists (lists : List (List Entry)) (totals : List Entry),
      answers parts.flatten = lists.flatten.map form ∧ answers sums = totals.map form ∧
        List.Forall₂ (fun list total => Merge.running join list = some total) lists totals := by
  induction summed with
  | nil => exact ⟨[], [], rfl, rfl, .nil⟩
  | @cons part sum parts sums first _ inductionHypothesis =>
      rcases inductionHypothesis with ⟨lists, totals, sameParts, sameSums, merged⟩
      rw [List.flatten_cons, answers_append, sameParts]
      cases first with
      | @answered entries total same mergedFirst =>
          refine ⟨entries :: lists, total :: totals, ?_, ?_, .cons mergedFirst merged⟩
          · rw [same, List.flatten_cons, List.map_append]
          · rw [answers, sameSums, List.map_cons]
      | failed none isLast sameRoot =>
          refine ⟨lists, totals, ?_, ?_, merged⟩
          · rw [none, List.nil_append]
          · rw [answers, sameSums]

/-- The last outcome of all is that of the last part. -/
theorem getLast?_flatten_of_sums (summed : List.Forall₂ (SumsUp form join) parts sums)
    {fault : Fault} (isLast : sums.getLast? = some (.error fault)) :
    exists last, parts.flatten.getLast? = some (.error last) ∧
      fault.rootCause = last.rootCause := by
  induction summed with
  | nil => cases isLast
  | @cons part sum parts sums first later inductionHypothesis =>
      rw [List.flatten_cons, List.getLast?_append]
      cases later with
      | nil =>
          cases isLast
          cases first with
          | failed none isLast sameRoot => exact ⟨_, isLast, sameRoot⟩
      | cons second rest =>
          rw [List.getLast?_cons_cons] at isLast
          rcases inductionHypothesis isLast with ⟨last, isLastOfAll, sameRoot⟩
          exact ⟨last, by rw [isLastOfAll]; rfl, sameRoot⟩

/-- What parts of the outcomes come to comes to what all the outcomes come to. -/
theorem SumsUp.flatten {request : Request Answer} (regroups : request.Regroups form join)
    (window : Duration) (summed : List.Forall₂ (SumsUp form join) parts sums)
    (nonempty : sums ≠ []) :
    SumsUp form join parts.flatten (ofOutcomes (request.merge window) request.empty sums) := by
  rcases exists_entries_of_sums summed with ⟨lists, totals, sameParts, sameSums, merged⟩
  have regrouped := Merge.running_flatten regroups.assoc merged
  cases sum : Merge.running join totals with
  | some total =>
      rw [(regroups.merges window).ofOutcomes_eq sameSums sum]
      exact .answered sameParts (regrouped.trans sum)
  | none =>
      have nobody : answers sums = [] := by
        rw [sameSums, Merge.running_eq_none_iff.mp sum]
        rfl
      have nobodyInParts : answers parts.flatten = [] := by
        rw [sameParts, Merge.running_eq_none_iff.mp (regrouped.trans sum)]
        rfl
      have isLast := List.getLast?_eq_some_getLast nonempty
      rcases ofOutcomes_of_faults (request.merge window) request.empty nobody isLast with
        ⟨fault, lastFault, verdict⟩
      rw [lastFault] at isLast
      rcases getLast?_flatten_of_sums summed isLast with ⟨last, isLastOfAll, sameRoot⟩
      rw [verdict]
      exact .failed nobodyInParts isLastOfAll sameRoot

/-- That two outcomes are the same answer, or faults with a root cause in common with the last of some
outcomes. -/
def Agree (outcomes : List (Except Fault Answer)) (left right : Except Fault Answer) : Prop :=
  (exists answer, left = .ok answer ∧ right = .ok answer) ∨
    exists leftFault rightFault last, left = .error leftFault ∧ right = .error rightFault ∧
      outcomes.getLast? = some (.error last) ∧
        leftFault.rootCause = last.rootCause ∧ rightFault.rootCause = last.rootCause

theorem SumsUp.agree (injective : Function.Injective form) {left right : Except Fault Answer}
    (leftSum : SumsUp form join outcomes left) (rightSum : SumsUp form join outcomes right) :
    Agree outcomes left right := by
  cases leftSum with
  | answered same merged =>
      cases rightSum with
      | answered sameRight mergedRight =>
          have sameEntries := List.map_injective_iff.mpr injective (same.symm.trans sameRight)
          rw [sameEntries, mergedRight] at merged
          exact .inl ⟨_, rfl, by rw [Option.some.inj merged]⟩
      | failed none _ _ =>
          rw [none] at same
          rw [List.map_eq_nil_iff.mp same.symm] at merged
          cases merged
  | failed none isLast sameRoot =>
      cases rightSum with
      | answered same merged =>
          rw [none] at same
          rw [List.map_eq_nil_iff.mp same.symm] at merged
          cases merged
      | failed _ isLastRight sameRootRight =>
          cases isLast.symm.trans isLastRight
          exact .inr ⟨_, _, _, rfl, rfl, isLast, sameRoot, sameRootRight⟩

end Verdict

namespace Respondent

open Verdict

variable {request : Request Answer} {form : Entry -> Answer} {join : Entry -> Entry -> Entry}

mutual

/-- A grouping ends with what the outcomes of its members come to. -/
theorem sumsUp_federate (regroups : request.Regroups form join)
    (grouping : Grouping (Respondent Answer)) {outcomes : List (Except Fault Answer)}
    (returned : grouping.members.map (ending request) = outcomes.map .returned)
    (formed : forall answer, .ok answer ∈ outcomes -> exists entry, form entry = answer)
    (index : Nat) :
    SumsUp form join outcomes
      (((grouping.federate federation).ending request).outcome index) := by
  cases grouping with
  | single member =>
      rw [Grouping.members] at returned
      rcases outcomes with _ | ⟨outcome, _ | ⟨second, rest⟩⟩
      · cases returned
      · have sameEnding : member.ending request = .returned outcome := (List.cons.inj returned).1
        rw [Grouping.federate, sameEnding]
        apply SumsUp.singleton
        rintro answer rfl
        exact formed answer List.mem_cons_self
      · cases (List.cons.inj returned).2
  | group settings first rest =>
      rw [Grouping.members, List.map_append] at returned
      rcases List.map_eq_append_iff.mp returned.symm with
        ⟨ofFirst, ofRest, rfl, returnedFirst, returnedRest⟩
      have firstSum := sumsUp_federate regroups first returnedFirst.symm
        (fun answer isAnswer => formed answer (List.mem_append_left _ isAnswer)) 0
      rcases sumsUp_federateAll regroups rest returnedRest.symm
        (fun answer isAnswer => formed answer (List.mem_append_right _ isAnswer)) 1 with
        ⟨parts, rfl, restSums⟩
      exact SumsUp.flatten regroups settings.window (.cons firstSum restSums)
        (List.cons_ne_nil _ _)

theorem sumsUp_federateAll (regroups : request.Regroups form join)
    (groupings : List (Grouping (Respondent Answer))) {outcomes : List (Except Fault Answer)}
    (returned : (Grouping.membersOfAll groupings).map (ending request) = outcomes.map .returned)
    (formed : forall answer, .ok answer ∈ outcomes -> exists entry, form entry = answer)
    (index : Nat) :
    exists parts : List (List (Except Fault Answer)), outcomes = parts.flatten ∧
      List.Forall₂ (SumsUp form join) parts
        (outcomesFrom request index (Grouping.federateAll federation groupings)) := by
  cases groupings with
  | nil =>
      have none : outcomes = [] := List.map_eq_nil_iff.mp returned.symm
      exact ⟨[], none, .nil⟩
  | cons grouping rest =>
      rw [Grouping.membersOfAll, List.map_append] at returned
      rcases List.map_eq_append_iff.mp returned.symm with
        ⟨ofFirst, ofRest, rfl, returnedFirst, returnedRest⟩
      have firstSum := sumsUp_federate regroups grouping returnedFirst.symm
        (fun answer isAnswer => formed answer (List.mem_append_left _ isAnswer)) index
      rcases sumsUp_federateAll regroups rest returnedRest.symm
        (fun answer isAnswer => formed answer (List.mem_append_right _ isAnswer)) (index + 1) with
        ⟨parts, rfl, restSums⟩
      exact ⟨ofFirst :: parts, rfl, .cons firstSum restSums⟩

end

/-- The verdict of a federation of groupings is what the outcomes of all members come to. -/
theorem sumsUp_outcomes_federateAll (regroups : request.Regroups form join) (window : Duration)
    {groupings : List (Grouping (Respondent Answer))} (nonempty : groupings ≠ [])
    {outcomes : List (Except Fault Answer)}
    (returned : (Grouping.membersOfAll groupings).map (ending request) = outcomes.map .returned)
    (formed : forall answer, .ok answer ∈ outcomes -> exists entry, form entry = answer) :
    SumsUp form join outcomes
      (ofOutcomes (request.merge window) request.empty
        (Respondent.outcomes request (Grouping.federateAll federation groupings))) := by
  rcases sumsUp_federateAll regroups groupings returned formed 0 with ⟨parts, rfl, sums⟩
  apply SumsUp.flatten regroups window sums
  intro nobody
  have lengths := outcomesFrom_length request 0 (Grouping.federateAll federation groupings)
  rw [nobody] at lengths
  exact Grouping.federateAll_ne_nil federation nonempty (List.length_eq_zero_iff.mp lengths.symm)

end Respondent
end QueryFederation
