import QueryFederation.Proofs.Federation.Cancelled
import QueryFederation.Proofs.Schedule.Endings

/-!
# Calls that are withdrawn

The caller of a federation may withdraw the call, and then it gets the cancellation itself, at the time
of the cancellation, or else what it would have got anyway.  There is nothing between the two: neither
a total failure with a cancellation as its cause, nor an answer from some of the members.

A cancellation and a timer may fall into the same millisecond.  Then it is left to the order of the
steps which of them comes first, so a time of cancellation is taken to be apart from all timers.  No
timer runs for a backend that answers at once.  A deadline of no time at all is kept by a unit that
runs before the units of the members, so it comes before everything that these could deliver.
-/

namespace QueryFederation

/-- A fault, its cause, the cause of that, and so on. -/
def Fault.lineage : Fault -> List Fault
  | .allBackendsFailed last => .allBackendsFailed last :: last.lineage
  | .backendBecause complaint cause => .backendBecause complaint cause :: cause.lineage
  | .configParseBecause complaint cause => .configParseBecause complaint cause :: cause.lineage
  | fault => [fault]

/-- Whether a cancellation comes before the end of a call whose units are done at a time. -/
def Cancellation.ComesBefore (doneMillis : Nat) : Cancellation -> Prop
  | .upFront => True
  | .after millis => millis < doneMillis ∨ millis = 0

namespace Backend

variable {Answer : Type}

/-! ## Timers -/

mutual

/-- The times at which the timers of a backend elapse. -/
def timers : Backend -> List Nat
  | mock scripted => if scripted.delayMillis = 0 then [] else [scripted.delayMillis]
  | fixture _ _ => []
  | crashing _ => []
  | federation _ members => timersOfMembers members

/-- The times at which the timers of backends elapse. -/
def timersOfMembers : List Backend -> List Nat
  | [] => []
  | member :: members => timers member ++ timersOfMembers members

end

mutual

/-- A call ends at once or when a timer elapses. -/
theorem finishMillis_eq_zero_or_mem_timers (request : Request Answer) (backend : Backend) :
    (backend.respondent request).finishMillis request = 0 ∨
      (backend.respondent request).finishMillis request ∈ backend.timers := by
  cases backend with
  | mock scripted =>
      change scripted.delayMillis = 0 ∨ scripted.delayMillis ∈ timers (.mock scripted)
      rw [timers]
      by_cases immediate : scripted.delayMillis = 0
      · exact Or.inl immediate
      · rw [if_neg immediate]
        exact Or.inr List.mem_cons_self
  | fixture name snapshot => exact Or.inl rfl
  | crashing message => exact Or.inl rfl
  | federation settings members =>
      rw [respondent, Respondent.finishMillis, Verdict.delayMillis, timers]
      rcases Verdict.foldr_max_eq_zero_or_mem _ with immediate | isDelay
      · exact Or.inl immediate
      · exact eq_zero_or_mem_timersOfMembers request members (List.mem_of_mem_take isDelay)

theorem eq_zero_or_mem_timersOfMembers (request : Request Answer) (members : List Backend)
    {delay : Nat} (isDelay : delay ∈ Respondent.finishes request (respondents request members)) :
    delay = 0 ∨ delay ∈ timersOfMembers members := by
  cases members with
  | nil => cases isDelay
  | cons member rest =>
      rw [timersOfMembers, List.mem_append]
      rcases List.mem_cons.mp isDelay with rfl | later
      · exact (finishMillis_eq_zero_or_mem_timers request member).imp id Or.inl
      · exact (eq_zero_or_mem_timersOfMembers request rest later).imp id Or.inr

end

/-! ## Calls that nobody cancels know no cancellation -/

mutual

theorem cancelled_not_mem_ending (operation : ReadOperation) (backend : Backend) (index : Nat)
    {fault : Fault}
    (failed : ((backend.respondent operation.request).ending operation.request).outcome index =
      .error fault) : Fault.cancelled ∉ fault.lineage := by
  cases backend with
  | mock scripted =>
      change scripted.outcome operation.request = .error fault at failed
      unfold Mock.outcome at failed
      split at failed
      · cases failed
        exact fun member => nomatch List.mem_singleton.mp member
      · cases failed
  | fixture name snapshot => cases failed
  | crashing message =>
      cases failed
      exact fun member => nomatch List.mem_singleton.mp member
  | federation settings members =>
      rcases Verdict.ofOutcomes_error_cases failed with ⟨left, right, mismatch⟩ | ⟨last, isLast, rfl⟩
      · rcases operation.shapeMismatch_of_merge mismatch with ⟨first, second, rfl⟩
        exact fun member => nomatch List.mem_singleton.mp member
      · have below := cancelled_not_mem_outcomes operation members 0 isLast
        intro member
        rcases List.mem_cons.mp member with same | above
        · cases same
        · exact below above

theorem cancelled_not_mem_outcomes (operation : ReadOperation) (members : List Backend)
    (index : Nat) {fault : Fault}
    (failed : .error fault ∈ Respondent.outcomesFrom operation.request index
      (respondents operation.request members)) : Fault.cancelled ∉ fault.lineage := by
  cases members with
  | nil => cases failed
  | cons member rest =>
      rcases List.mem_cons.mp failed with first | later
      · exact cancelled_not_mem_ending operation member _ first.symm
      · exact cancelled_not_mem_outcomes operation rest (index + 1) later

end

/-! ## The caller gets the cancellation or nothing of it -/

/-- A cancellation that is apart from all timers and does not come before the end of a call comes
after it. -/
theorem lt_of_not_comesBefore (request : Request Answer) {backend : Backend}
    {cancellation : Cancellation}
    (apart : forall millis, cancellation = .after millis -> millis ∉ backend.timers)
    (notBefore : ¬ cancellation.ComesBefore ((backend.respondent request).finishMillis request)) :
    exists millis, cancellation = .after millis ∧
      (backend.respondent request).finishMillis request < millis := by
  cases cancellation with
  | upFront => exact absurd trivial notBefore
  | after millis =>
      rcases not_or.mp notBefore with ⟨notRunning, notAtOnce⟩
      refine ⟨millis, rfl, lt_of_le_of_ne (Nat.le_of_not_lt notRunning) ?_⟩
      intro same
      rcases finishMillis_eq_zero_or_mem_timers request backend with immediate | isTimer
      · exact notAtOnce (same.symm.trans immediate)
      · exact apart millis rfl (same ▸ isTimer)

/-- A call that is cancelled before it is done ends with the cancellation. -/
theorem call_of_comesBefore (request : Request Answer) (settings : FederationSettings)
    (members : List Backend) {cancellation : Cancellation} (nonempty : members ≠ [])
    (before : cancellation.ComesBefore
      (((federation settings members).respondent request).finishMillis request)) :
    ((federation settings members).call request (some cancellation)).ending =
        .returned (.error .cancelled) ∧
      ((federation settings members).call request (some cancellation)).moment.millis =
        cancellation.moment.millis := by
  cases cancellation with
  | upFront =>
      rw [call_upFront request settings members nonempty]
      exact ⟨rfl, rfl⟩
  | after millis =>
      rcases before with running | rfl
      · rcases call_after_of_lt_finish request settings members running with ⟨ending, moment⟩
        exact ⟨ending, congrArg Moment.millis moment⟩
      · rcases call_after_zero request settings members nonempty with ⟨ending, moment⟩
        exact ⟨ending, congrArg Moment.millis moment⟩

/-- Any other cancellation changes nothing of a call. -/
theorem call_of_not_comesBefore (request : Request Answer) (settings : FederationSettings)
    (members : List Backend) {cancellation : Cancellation}
    (apart : forall millis, cancellation = .after millis ->
      millis ∉ (federation settings members).timers)
    (notBefore : ¬ (members ≠ [] ∧ cancellation.ComesBefore
      (((federation settings members).respondent request).finishMillis request))) :
    (federation settings members).call request (some cancellation) =
      (federation settings members).call request none := by
  by_cases none : members = []
  · rw [none]
    rfl
  · rcases lt_of_not_comesBefore request apart
      (fun before => notBefore ⟨none, before⟩) with ⟨millis, rfl, due⟩
    exact call_after_of_finish_lt request settings members due

open Schedule

/-- The caller of a federation that withdraws the call gets the cancellation and nothing else, at its
time, if it comes before the call is done, and what it would have got anyway if not.  The order in
which the units run has no part in this, and a call that nobody withdraws never ends with a
cancellation, not even as a cause. -/
theorem call_cancelled_or_unchanged (operation : ReadOperation) (settings : FederationSettings)
    (members : List Backend) (cancellation : Cancellation)
    (apart : forall millis, cancellation = .after millis ->
      millis ∉ (federation settings members).timers) :
    let request := operation.request
    let root := federation settings members
    let doneMillis := (root.respondent request).finishMillis request
    let plan : Plan operation.Answer := ⟨request, root.respondent request, some cancellation⟩
    let cancelled := root.call request (some cancellation)
    let plain := root.call request none
    (members ≠ [] ∧ cancellation.ComesBefore doneMillis ->
        cancelled.ending = .returned (.error .cancelled) ∧
          cancelled.moment.millis = cancellation.moment.millis ∧
          ((cancellation = .after 0 ∧ doneMillis = 0) ∨
            AlwaysEnds plan cancellation.moment.millis (.error .cancelled))) ∧
      (¬ (members ≠ [] ∧ cancellation.ComesBefore doneMillis) ->
        cancelled = plain ∧ plain.moment.millis = doneMillis ∧
          exists outcome, plain.ending = .returned outcome ∧ AlwaysEnds plan doneMillis outcome) ∧
      forall fault, plain.ending = .returned (.error fault) -> Fault.cancelled ∉ fault.lineage := by
  intro request root doneMillis plan cancelled plain
  have plainEnding := call_uncancelled_ending request root
  refine ⟨?_, ?_, ?_⟩
  · rintro ⟨nonempty, before⟩
    have someMember : respondents request members ≠ [] := by
      rw [respondents_eq_map]
      exact mt List.map_eq_nil_iff.mp nonempty
    rcases call_of_comesBefore request settings members nonempty before with ⟨ending, atIt⟩
    refine ⟨ending, atIt, ?_⟩
    cases cancellation with
    | upFront => exact Or.inr (alwaysEnds_of_upFront someMember)
    | after millis =>
        rcases before with running | rfl
        · exact Or.inr (alwaysEnds_of_lt_finish running)
        · by_cases immediate : doneMillis = 0
          · exact Or.inl ⟨rfl, immediate⟩
          · exact Or.inr (alwaysEnds_of_lt_finish (Nat.pos_of_ne_zero immediate))
  · intro notBefore
    refine ⟨call_of_not_comesBefore request settings members apart notBefore,
      call_uncancelled_millis request root, _, plainEnding, ?_⟩
    apply alwaysEnds_of_undisturbed
    by_cases none : members = []
    · exact Or.inl (congrArg (respondents request) none)
    · rcases lt_of_not_comesBefore request apart
        (fun before => notBefore ⟨none, before⟩) with ⟨millis, rfl, due⟩
      exact Or.inr ⟨millis, rfl, due⟩
  · intro fault failed
    apply cancelled_not_mem_ending operation root 0
    rw [← plainEnding, failed]
    rfl

/-- A mock that takes ten milliseconds is withdrawn after five of them. -/
theorem call_cancelled_or_unchanged_halfway :
    let operation := ReadOperation.labelValues "job"
    let slow : Mock := { Mock.silent "slow" with delayMillis := 10, ignoresCancellation := true }
    let root := federation ⟨Duration.zero, ["slow"], true⟩ [.mock slow]
    (forall millis, Cancellation.after 5 = .after millis -> millis ∉ root.timers) ∧
      (root.call operation.request (some (.after 5))).ending = .returned (.error .cancelled) ∧
      (root.call operation.request (some (.after 5))).moment.millis = 5 := by
  intro operation slow root
  have apart : forall millis, Cancellation.after 5 = .after millis -> millis ∉ root.timers := by
    intro millis same
    cases same
    decide
  have result := call_cancelled_or_unchanged operation ⟨Duration.zero, ["slow"], true⟩ [.mock slow]
    (.after 5) apart
  rcases result.1 ⟨List.cons_ne_nil _ _, Or.inl (by decide)⟩ with ⟨ending, atIt, _⟩
  exact ⟨apart, ending, atIt⟩

/-- A deadline of no time at all does not come before the end of a call that takes no time, and yet it
cancels the call. -/
theorem call_cancelled_at_zero :
    let operation := ReadOperation.labelValues "job"
    let quick : Mock := { Mock.silent "a" with labelValues := ["x"] }
    let root := federation ⟨Duration.zero, ["a"], true⟩ [.mock quick]
    0 ∉ root.timers ∧
      (root.respondent operation.request).finishMillis operation.request = 0 ∧
      (root.call operation.request none).ending = .returned (.ok ["x"]) ∧
      (root.call operation.request (some (.after 0))).ending = .returned (.error .cancelled) := by
  refine ⟨?_, rfl, rfl, rfl⟩
  decide

end Backend
end QueryFederation
