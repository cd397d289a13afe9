import Mathlib.Data.List.Induction
import Mathlib.Tactic.ByContra
import QueryFederation.Federation.Course

/-!
# The verdict on the outcomes of a call

A federation that nobody interrupts answers what the outcomes of its members come to, taken in the
order of the members.  The verdict is stated here on the list of outcomes alone, without moments,
units or mailboxes: the answers are folded from the left, a failing merge ends the fold with its
fault, and faults count only when there is no answer at all.

Nobody waits for an outcome that comes after a failing merge.  So the time that a federation takes is
the greatest delay among the members that it consults, which are those up to and including the one
whose answer cannot be merged.
-/

namespace QueryFederation

/-- One of the four read operations, with its arguments. -/
inductive ReadOperation where
  | labelValues (label : String)
  | query (text : String)
  | queryRange (text : String) (range : QueryRange)
  | series (metrics : List String)

namespace ReadOperation

/-- What an operation is answered with. -/
abbrev Answer : ReadOperation -> Type
  | labelValues _ => List String
  | query _ => QueryResult
  | queryRange _ _ => QueryResult
  | series _ => List LabelSet

/-- The request that asks for an operation. -/
def request : (operation : ReadOperation) -> Request operation.Answer
  | labelValues label => Request.labelValues label
  | query text => Request.query text
  | queryRange text range => Request.queryRange text range
  | series metrics => Request.series metrics

/-- The only fault that merging the answers to an operation can bring about is a mismatch of
shapes. -/
theorem shapeMismatch_of_merge (operation : ReadOperation) {window : Duration}
    {first second : operation.Answer} {fault : Fault}
    (failed : operation.request.merge window first second = .error fault) :
    exists left right, fault = .shapeMismatch left right := by
  have ofResults : forall {left right : QueryResult},
      Request.mergeResults window left right = .error fault ->
      exists left right, fault = .shapeMismatch left right := by
    intro left right mismatched
    unfold Request.mergeResults at mismatched
    split at mismatched
    · cases mismatched
    · rename_i mismatch _
      exact ⟨mismatch.left, mismatch.right, (Except.error.inj mismatched).symm⟩
  cases operation with
  | labelValues label => cases failed
  | query text => exact ofResults failed
  | queryRange text range => exact ofResults failed
  | series metrics => cases failed

end ReadOperation

namespace Verdict

variable {Answer : Type}

/-- The answers among outcomes, in their order. -/
def answers : List (Except Fault Answer) -> List Answer
  | [] => []
  | .ok answer :: outcomes => answer :: answers outcomes
  | .error _ :: outcomes => answers outcomes

/-- The faults among outcomes, in their order. -/
def faults : List (Except Fault Answer) -> List Fault
  | [] => []
  | .ok _ :: outcomes => faults outcomes
  | .error fault :: outcomes => fault :: faults outcomes

/-- The left fold of the answers, if there are any, or the fault of the first merge that fails. -/
def merging (merge : Answer -> Answer -> Except Fault Answer) (outcomes : List (Except Fault Answer)) :
    Except Fault (Option Answer) :=
  match answers outcomes with
  | [] => .ok none
  | first :: rest => (rest.foldlM merge first).map some

/-- Whether a merge fails among outcomes. -/
def breaks (merge : Answer -> Answer -> Except Fault Answer)
    (outcomes : List (Except Fault Answer)) : Bool :=
  match merging merge outcomes with
  | .ok _ => false
  | .error _ => true

/-- The number of outcomes up to and including the one at which a merge fails, or of all outcomes if
none fails: it is the first index before which a merge has failed. -/
def consulted (merge : Answer -> Answer -> Except Fault Answer)
    (outcomes : List (Except Fault Answer)) : Nat :=
  (List.range outcomes.length).findIdx fun index => breaks merge (outcomes.take index)

/-- What the outcomes of all members come to. -/
def ofOutcomes (merge : Answer -> Answer -> Except Fault Answer) (empty : Answer)
    (outcomes : List (Except Fault Answer)) : Except Fault Answer :=
  match merging merge outcomes, (faults outcomes).getLast? with
  | .error fault, _ => .error fault
  | .ok (some merged), _ => .ok merged
  | .ok none, some last => .error (.allBackendsFailed last)
  | .ok none, none => .ok empty

/-- How long the verdict takes when the outcomes come with these delays. -/
def delayMillis (merge : Answer -> Answer -> Except Fault Answer)
    (outcomes : List (Except Fault Answer)) (delays : List Nat) : Nat :=
  (delays.take (consulted merge outcomes)).foldr max 0

/-! ## The greatest delay -/

theorem foldr_max_append (first : List Nat) (last : Nat) :
    (first ++ [last]).foldr max 0 = max (first.foldr max 0) last := by
  induction first with
  | nil => exact Nat.max_comm last 0
  | cons delay rest inductionHypothesis =>
      rw [List.cons_append, List.foldr_cons, inductionHypothesis, List.foldr_cons, Nat.max_assoc]

theorem foldr_max_le_iff (delays : List Nat) (bound : Nat) :
    delays.foldr max 0 ≤ bound <-> forall delay, delay ∈ delays -> delay ≤ bound := by
  induction delays with
  | nil => simp
  | cons delay rest inductionHypothesis =>
      rw [List.foldr_cons, Nat.max_le, inductionHypothesis]
      simp only [List.mem_cons, forall_eq_or_imp]

theorem foldr_max_eq_zero_or_mem (delays : List Nat) :
    delays.foldr max 0 = 0 ∨ delays.foldr max 0 ∈ delays := by
  induction delays with
  | nil => exact Or.inl rfl
  | cons delay rest inductionHypothesis =>
      rw [List.foldr_cons]
      rcases Nat.le_total delay (rest.foldr max 0) with notAfter | notAfter
      · rw [Nat.max_eq_right notAfter]
        exact inductionHypothesis.imp id (List.mem_cons_of_mem _)
      · rw [Nat.max_eq_left notAfter]
        exact Or.inr List.mem_cons_self

/-! ## Taking one outcome more -/

/-- Merge one more outcome into what has been merged so far.  A fault leaves it as it is. -/
def extend (merge : Answer -> Answer -> Except Fault Answer) (merged : Option Answer) :
    Except Fault Answer -> Except Fault (Option Answer)
  | .error _ => .ok merged
  | .ok answer =>
      match merged with
      | none => .ok (some answer)
      | some merged => (merge merged answer).map some

/-- The last fault when one more outcome has come. -/
def lastFaultAfter (last : Option Fault) : Except Fault Answer -> Option Fault
  | .error fault => some fault
  | .ok _ => last

theorem answers_append (first second : List (Except Fault Answer)) :
    answers (first ++ second) = answers first ++ answers second := by
  induction first with
  | nil => rfl
  | cons outcome rest inductionHypothesis =>
      cases outcome <;> simp only [List.cons_append, answers, inductionHypothesis]

theorem faults_append (first second : List (Except Fault Answer)) :
    faults (first ++ second) = faults first ++ faults second := by
  induction first with
  | nil => rfl
  | cons outcome rest inductionHypothesis =>
      cases outcome <;> simp only [List.cons_append, faults, inductionHypothesis]

/-- The last fault changes only with an outcome that is a fault. -/
theorem faults_concat_getLast? (outcomes : List (Except Fault Answer))
    (outcome : Except Fault Answer) :
    (faults (outcomes ++ [outcome])).getLast? =
      lastFaultAfter (faults outcomes).getLast? outcome := by
  rw [faults_append]
  cases outcome with
  | error fault => exact List.getLast?_concat
  | ok answer => exact congrArg List.getLast? (List.append_nil _)

/-- One outcome more is one step more of the fold. -/
theorem merging_concat (merge : Answer -> Answer -> Except Fault Answer)
    (outcomes : List (Except Fault Answer)) (outcome : Except Fault Answer) :
    merging merge (outcomes ++ [outcome]) =
      (merging merge outcomes).bind fun merged => extend merge merged outcome := by
  cases outcome with
  | error fault =>
      have same : answers (outcomes ++ [.error fault]) = answers outcomes := by
        rw [answers_append]
        exact List.append_nil _
      unfold merging
      rw [same]
      cases answers outcomes with
      | nil => rfl
      | cons first rest =>
          dsimp only
          cases rest.foldlM merge first <;> rfl
  | ok answer =>
      unfold merging
      rw [answers_append]
      cases answers outcomes with
      | nil => rfl
      | cons first rest =>
          change ((rest ++ [answer]).foldlM merge first).map some =
            ((rest.foldlM merge first).map some).bind fun merged => extend merge merged (.ok answer)
          rw [List.foldlM_append]
          cases rest.foldlM merge first with
          | error fault => rfl
          | ok merged =>
              change (List.foldlM merge merged [answer]).map some = (merge merged answer).map some
              rw [List.foldlM_cons]
              cases merge merged answer <;> rfl

/-- A merge that fails is not mended by what comes later. -/
theorem merging_append_of_error (merge : Answer -> Answer -> Except Fault Answer)
    {outcomes : List (Except Fault Answer)} {fault : Fault}
    (failed : merging merge outcomes = .error fault) (later : List (Except Fault Answer)) :
    merging merge (outcomes ++ later) = .error fault := by
  induction later generalizing outcomes with
  | nil => rw [List.append_nil, failed]
  | cons outcome rest inductionHypothesis =>
      rw [List.append_cons]
      apply inductionHypothesis
      rw [merging_concat, failed]
      rfl

theorem breaks_eq_true_iff (merge : Answer -> Answer -> Except Fault Answer)
    (outcomes : List (Except Fault Answer)) :
    breaks merge outcomes = true <-> exists fault, merging merge outcomes = .error fault := by
  unfold breaks
  cases merging merge outcomes with
  | error fault => simp
  | ok merged => simp

theorem breaks_eq_false_iff (merge : Answer -> Answer -> Except Fault Answer)
    (outcomes : List (Except Fault Answer)) :
    breaks merge outcomes = false <-> exists merged, merging merge outcomes = .ok merged := by
  unfold breaks
  cases merging merge outcomes with
  | error fault => simp
  | ok merged => simp

theorem breaks_of_isPrefix (merge : Answer -> Answer -> Except Fault Answer)
    {first outcomes : List (Except Fault Answer)} (isPrefix : first <+: outcomes)
    (broken : breaks merge first = true) : breaks merge outcomes = true := by
  rcases isPrefix with ⟨later, rfl⟩
  rcases (breaks_eq_true_iff merge first).mp broken with ⟨fault, failed⟩
  exact (breaks_eq_true_iff merge _).mpr ⟨fault, merging_append_of_error merge failed later⟩

/-! ## How many outcomes are consulted -/

section FirstBreak

variable {Entry : Type} {broken : List Entry -> Bool} {entries taken later : List Entry} {entry : Entry}
  {index : Nat}

/-- The number of entries up to and including the one with which something breaks, or of all entries if
nothing does: it is the first index before which it is broken. -/
def firstBreak (broken : List Entry -> Bool) (entries : List Entry) : Nat :=
  (List.range entries.length).findIdx fun index => broken (entries.take index)

theorem firstBreak_le (broken : List Entry -> Bool) (entries : List Entry) :
    firstBreak broken entries ≤ entries.length := by
  have bound : firstBreak broken entries ≤ (List.range entries.length).length :=
    List.findIdx_le_length
  rwa [List.length_range] at bound

section Lasting

-- What is broken is not mended by later entries.
variable (lasting : forall {first whole : List Entry}, first <+: whole -> broken first = true ->
  broken whole = true)
include lasting

/-- An entry is among those up to the break when nothing has broken before. -/
theorem lt_firstBreak (inside : index < entries.length) (whole : broken (entries.take index) = false) :
    index < firstBreak broken entries := by
  apply List.lt_findIdx_of_not (by rwa [List.length_range])
  intro earlier before
  rw [List.getElem_range]
  intro isBroken
  have after := lasting (List.take_prefix_take_left before) isBroken
  rw [whole] at after
  cases after

theorem firstBreak_eq (inside : index < entries.length) (whole : broken (entries.take index) = false)
    (breaks : broken (entries.take (index + 1)) = true) : firstBreak broken entries = index + 1 := by
  apply Nat.le_antisymm
  · by_contra exceeds
    have stillInside : index + 1 < firstBreak broken entries := Nat.lt_of_not_le exceeds
    have unbroken := List.not_of_lt_findIdx stillInside
    rw [List.getElem_range] at unbroken
    rw [breaks] at unbroken
    cases unbroken
  · exact lt_firstBreak lasting inside whole

theorem firstBreak_eq_length (whole : broken entries = false) :
    firstBreak broken entries = entries.length := by
  apply Nat.le_antisymm (firstBreak_le broken entries)
  cases length : entries.length with
  | zero => exact Nat.zero_le _
  | succ last =>
      apply lt_firstBreak lasting (by omega)
      cases isBroken : broken (entries.take last) with
      | false => rfl
      | true =>
          have all := lasting (List.take_prefix last entries) isBroken
          rw [whole] at all
          cases all

/-- The entry with which something breaks, with what comes before it and after it. -/
theorem firstBreak_of_breaks (whole : broken taken = false) (breaks : broken (taken ++ [entry]) = true) :
    firstBreak broken (taken ++ entry :: later) = taken.length + 1 := by
  apply firstBreak_eq lasting
  · rw [List.length_append, List.length_cons]
    omega
  · rwa [List.take_left]
  · rwa [List.append_cons, ← List.length_concat (a := entry), List.concat_eq_append, List.take_left]

end Lasting

end FirstBreak

theorem consulted_le (merge : Answer -> Answer -> Except Fault Answer)
    (outcomes : List (Except Fault Answer)) : consulted merge outcomes ≤ outcomes.length :=
  firstBreak_le (breaks merge) outcomes

/-- An outcome is consulted when no merge has failed before. -/
theorem lt_consulted (merge : Answer -> Answer -> Except Fault Answer)
    {outcomes : List (Except Fault Answer)} {index : Nat} (inside : index < outcomes.length)
    (whole : breaks merge (outcomes.take index) = false) : index < consulted merge outcomes :=
  lt_firstBreak (breaks_of_isPrefix merge) inside whole

/-- Consultation stops with the outcome at which a merge fails. -/
theorem consulted_eq_of_breaks (merge : Answer -> Answer -> Except Fault Answer)
    {outcomes : List (Except Fault Answer)} {index : Nat} (inside : index < outcomes.length)
    (whole : breaks merge (outcomes.take index) = false)
    (broken : breaks merge (outcomes.take (index + 1)) = true) :
    consulted merge outcomes = index + 1 :=
  firstBreak_eq (breaks_of_isPrefix merge) inside whole broken

/-- All outcomes are consulted when no merge fails. -/
theorem consulted_eq_length (merge : Answer -> Answer -> Except Fault Answer)
    {outcomes : List (Except Fault Answer)} (whole : breaks merge outcomes = false) :
    consulted merge outcomes = outcomes.length :=
  firstBreak_eq_length (breaks_of_isPrefix merge) whole

/-! ## The verdict in each of its cases -/

theorem exists_merge_of_foldlM_error {merge : Answer -> Answer -> Except Fault Answer}
    {first : Answer} {rest : List Answer} {fault : Fault}
    (failed : rest.foldlM merge first = .error fault) :
    exists left right, merge left right = .error fault := by
  induction rest generalizing first with
  | nil => cases failed
  | cons next rest inductionHypothesis =>
      rw [List.foldlM_cons] at failed
      cases result : merge first next with
      | error cause =>
          rw [result] at failed
          cases failed
          exact ⟨first, next, result⟩
      | ok merged =>
          rw [result] at failed
          exact inductionHypothesis failed

/-- A fault of merging is the fault of one merge. -/
theorem exists_merge_of_merging_error {merge : Answer -> Answer -> Except Fault Answer}
    {outcomes : List (Except Fault Answer)} {fault : Fault}
    (failed : merging merge outcomes = .error fault) :
    exists left right, merge left right = .error fault := by
  unfold merging at failed
  split at failed
  · cases failed
  · rename_i first rest _
    cases folded : rest.foldlM merge first with
    | error cause =>
        rw [folded] at failed
        cases failed
        exact exists_merge_of_foldlM_error folded
    | ok merged =>
        rw [folded] at failed
        cases failed

theorem mem_of_mem_faults {outcomes : List (Except Fault Answer)} {fault : Fault}
    (member : fault ∈ faults outcomes) : .error fault ∈ outcomes := by
  induction outcomes with
  | nil => cases member
  | cons outcome rest inductionHypothesis =>
      cases outcome with
      | ok answer => exact List.mem_cons_of_mem _ (inductionHypothesis member)
      | error first =>
          rcases List.mem_cons.mp member with rfl | later
          · exact List.mem_cons_self
          · exact List.mem_cons_of_mem _ (inductionHypothesis later)

/-- How a verdict comes about. -/
inductive Decision (merge : Answer -> Answer -> Except Fault Answer) (empty : Answer)
    (outcomes : List (Except Fault Answer)) : Prop where
  | breaks {fault : Fault} (merges : merging merge outcomes = .error fault)
      (decided : ofOutcomes merge empty outcomes = .error fault)
  | answers {merged : Answer} (merges : merging merge outcomes = .ok (some merged))
      (decided : ofOutcomes merge empty outcomes = .ok merged)
  | allFailed {last : Fault} (isLast : (faults outcomes).getLast? = some last)
      (decided : ofOutcomes merge empty outcomes = .error (.allBackendsFailed last))
  | nobody (decided : ofOutcomes merge empty outcomes = .ok empty)

theorem decision (merge : Answer -> Answer -> Except Fault Answer) (empty : Answer)
    (outcomes : List (Except Fault Answer)) : Decision merge empty outcomes := by
  cases merges : merging merge outcomes with
  | error fault =>
      apply Decision.breaks merges
      rw [ofOutcomes, merges]
  | ok merged =>
      cases merged with
      | some result =>
          apply Decision.answers merges
          rw [ofOutcomes, merges]
      | none =>
          cases last : (faults outcomes).getLast? with
          | some fault =>
              apply Decision.allFailed last
              rw [ofOutcomes, merges, last]
          | none =>
              apply Decision.nobody
              rw [ofOutcomes, merges, last]

/-- A verdict is a fault for one of two reasons: a merge fails, or there are only faults. -/
theorem ofOutcomes_error_cases {merge : Answer -> Answer -> Except Fault Answer} {empty : Answer}
    {outcomes : List (Except Fault Answer)} {fault : Fault}
    (failed : ofOutcomes merge empty outcomes = .error fault) :
    (exists left right, merge left right = .error fault) ∨
      exists last, .error last ∈ outcomes ∧ fault = .allBackendsFailed last := by
  cases decision merge empty outcomes with
  | breaks merges decided =>
      cases decided.symm.trans failed
      exact Or.inl (exists_merge_of_merging_error merges)
  | answers merges decided => cases decided.symm.trans failed
  | allFailed isLast decided =>
      cases decided.symm.trans failed
      exact Or.inr ⟨_, mem_of_mem_faults (List.mem_of_getLast? isLast), rfl⟩
  | nobody decided => cases decided.symm.trans failed

theorem ofOutcomes_of_error (merge : Answer -> Answer -> Except Fault Answer) (empty : Answer)
    {outcomes : List (Except Fault Answer)} {fault : Fault}
    (failed : merging merge outcomes = .error fault) :
    ofOutcomes merge empty outcomes = .error fault := by
  unfold ofOutcomes
  rw [failed]

/-- What holds of all answers of the members and is kept by merging holds of the merged answer. -/
theorem merging_of_closed {merge : Answer -> Answer -> Except Fault Answer}
    {property : Answer -> Prop}
    (closed : forall {left right merged : Answer}, property left -> property right ->
      merge left right = .ok merged -> property merged)
    {outcomes : List (Except Fault Answer)}
    (members : forall answer, .ok answer ∈ outcomes -> property answer) {merged : Answer}
    (merges : merging merge outcomes = .ok (some merged)) : property merged := by
  induction outcomes using List.reverseRecOn generalizing merged with
  | nil => cases merges
  | append_singleton outcomes outcome inductionHypothesis =>
      have before : forall answer, .ok answer ∈ outcomes -> property answer :=
        fun answer isMember => members answer (List.mem_append_left _ isMember)
      rw [merging_concat] at merges
      cases soFar : merging merge outcomes with
      | error fault =>
          rw [soFar] at merges
          cases merges
      | ok first =>
          rw [soFar] at merges
          change extend merge first outcome = .ok (some merged) at merges
          cases outcome with
          | error fault =>
              cases merges
              exact inductionHypothesis before soFar
          | ok answer =>
              have last := members answer (List.mem_append_right _ (List.mem_singleton.mpr rfl))
              cases first with
              | none =>
                  cases merges
                  exact last
              | some left =>
                  unfold extend at merges
                  dsimp only at merges
                  cases both : merge left answer with
                  | error fault =>
                      rw [both] at merges
                      cases merges
                  | ok sum =>
                      rw [both] at merges
                      cases merges
                      exact closed (inductionHypothesis before soFar) last both

/-- What holds of the empty answer and of all answers of the members, and is kept by merging, holds of
the verdict. -/
theorem ofOutcomes_of_closed {merge : Answer -> Answer -> Except Fault Answer} {empty : Answer}
    (property : Answer -> Prop) (ofEmpty : property empty)
    (closed : forall {left right merged : Answer}, property left -> property right ->
      merge left right = .ok merged -> property merged)
    {outcomes : List (Except Fault Answer)}
    (members : forall answer, .ok answer ∈ outcomes -> property answer) {answer : Answer}
    (answered : ofOutcomes merge empty outcomes = .ok answer) : property answer := by
  cases decision merge empty outcomes with
  | breaks merges decided => cases decided.symm.trans answered
  | answers merges decided =>
      cases decided.symm.trans answered
      exact merging_of_closed closed members merges
  | allFailed isLast decided => cases decided.symm.trans answered
  | nobody decided =>
      cases decided.symm.trans answered
      exact ofEmpty

/-- The answers of the members decide when there are any. -/
theorem ofOutcomes_of_answers (merge : Answer -> Answer -> Except Fault Answer) (empty : Answer)
    {outcomes : List (Except Fault Answer)} {first : Answer} {rest : List Answer}
    (some : answers outcomes = first :: rest) :
    ofOutcomes merge empty outcomes = rest.foldlM merge first := by
  unfold ofOutcomes merging
  rw [some]
  dsimp only
  cases rest.foldlM merge first <;> rfl

/-- Without answers there is nothing but faults. -/
theorem eq_map_faults {outcomes : List (Except Fault Answer)} (none : answers outcomes = []) :
    outcomes = (faults outcomes).map .error := by
  induction outcomes with
  | nil => rfl
  | cons outcome rest inductionHypothesis =>
      cases outcome with
      | ok answer => cases none
      | error fault =>
          rw [faults, List.map_cons]
          exact congrArg (List.cons _) (inductionHypothesis none)

/-- Without answers the fault of the last member is the cause, if there is a member. -/
theorem ofOutcomes_of_faults (merge : Answer -> Answer -> Except Fault Answer) (empty : Answer)
    {outcomes : List (Except Fault Answer)} (none : answers outcomes = []) {last : Except Fault Answer}
    (isLast : outcomes.getLast? = some last) :
    exists fault, last = .error fault ∧
      ofOutcomes merge empty outcomes = .error (.allBackendsFailed fault) := by
  rw [eq_map_faults none, List.getLast?_map] at isLast
  rcases Option.map_eq_some_iff.mp isLast with ⟨fault, lastFault, rfl⟩
  refine ⟨fault, rfl, ?_⟩
  unfold ofOutcomes merging
  rw [none, lastFault]

/-- The delay of a verdict that a failing merge brings about is the greatest one up to that merge. -/
theorem delayMillis_of_breaks (merge : Answer -> Answer -> Except Fault Answer)
    {taken later : List (Except Fault Answer)} {outcome : Except Fault Answer}
    {takenDelays laterDelays : List Nat} {delay : Nat} (sameLength : takenDelays.length = taken.length)
    (whole : breaks merge taken = false) (broken : breaks merge (taken ++ [outcome]) = true) :
    delayMillis merge (taken ++ outcome :: later) (takenDelays ++ delay :: laterDelays) =
      max (takenDelays.foldr max 0) delay := by
  have count : consulted merge (taken ++ outcome :: later) = taken.length + 1 :=
    firstBreak_of_breaks (breaks_of_isPrefix merge) whole broken
  unfold delayMillis
  rw [count, List.append_cons, ← sameLength, ← List.length_concat (a := delay),
    List.concat_eq_append, List.take_left, foldr_max_append]

/-- When no merge fails the delay of a verdict is the greatest one. -/
theorem delayMillis_of_whole (merge : Answer -> Answer -> Except Fault Answer)
    {outcomes : List (Except Fault Answer)} {delays : List Nat}
    (sameLength : delays.length = outcomes.length) (whole : breaks merge outcomes = false) :
    delayMillis merge outcomes delays = delays.foldr max 0 := by
  unfold delayMillis
  rw [consulted_eq_length merge whole, ← sameLength, List.take_length]

end Verdict
end QueryFederation
