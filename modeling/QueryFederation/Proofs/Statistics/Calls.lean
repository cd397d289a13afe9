import Mathlib.Data.Finset.Sort
import QueryFederation.Proofs.Statistics.Running
import QueryFederation.Statistics.Summary

/-!
# Statistics are those of the calls since the last reset

The statistics of a federation are kept as counters, one entry for each member, and a new entry is made when a
member is called for the first time.  Whatever has happened to them, they are what the list of the calls since
the last reset defines: an entry for each member that occurs in the list, in the order of the indices, and in
it the number of its calls by outcome and by kind, and the latencies of its calls in their order.

All clones of the statistics share one state.  The hook of a clone is therefore the hook of the statistics, and
in a sequence of operations it does not matter through which clone each of them goes.
-/

namespace QueryFederation

/-! ## The counters of one member -/

namespace KindCounts

theorem get_increment (counts : KindCounts) (called kind : ApiKind) :
    (counts.increment called).get kind = counts.get kind + if called = kind then 1 else 0 := by
  cases called <;> cases kind <;> rfl

theorem sum_filter_nonzero (entries : List (ApiKind × Nat)) :
    ((entries.filter fun entry => entry.2 != 0).map Prod.snd).sum = (entries.map Prod.snd).sum := by
  induction entries with
  | nil => rfl
  | cons entry rest inductionHypothesis =>
      rw [List.map_cons, List.sum_cons, ← inductionHypothesis]
      by_cases isZero : entry.2 = 0
      · rw [List.filter_cons_of_neg (by simp [isZero]), isZero, Nat.zero_add]
      · rw [List.filter_cons_of_pos (by simp [isZero]), List.map_cons, List.sum_cons]

/-- The counts by kind add up to the number of calls that they count. -/
theorem sum_toList_increment (counts : KindCounts) (called : ApiKind) :
    ((counts.increment called).toList.map Prod.snd).sum = (counts.toList.map Prod.snd).sum + 1 := by
  rw [toList, toList, sum_filter_nonzero, sum_filter_nonzero]
  cases called <;> simp [ApiKind.all, get, increment] <;> omega

end KindCounts

namespace MemberStats

/-- That counters are those of a list of calls. -/
structure Counts (stats : MemberStats) (calls : List CallRecord) : Prop where
  successes : stats.successes = calls.countP fun call => call.status = .success
  errors : stats.errors = calls.countP fun call => call.status = .error
  latency : stats.latencyMillis = .ofValues (calls.map fun call => call.seconds * 1000.0)
  perKind : forall kind, stats.perKind.get kind = calls.countP fun call => call.kind = kind
  total : (stats.perKind.toList.map Prod.snd).sum = calls.length

variable {stats : MemberStats} {calls : List CallRecord}

theorem zero_counts : zero.Counts [] where
  successes := rfl
  errors := rfl
  latency := rfl
  perKind := fun kind => by cases kind <;> rfl
  total := rfl

theorem Counts.record (counts : stats.Counts calls) (call : CallRecord) :
    (stats.record call).Counts (calls ++ [call]) := by
  constructor
  case successes => simp [MemberStats.record, counts.successes]
  case errors => simp [MemberStats.record, counts.errors]
  case latency =>
    rw [List.map_append, List.map_singleton, RunningStats.ofValues_concat, ← counts.latency]
    rfl
  case perKind =>
    intro kind
    rw [MemberStats.record, KindCounts.get_increment, counts.perKind]
    simp
  case total =>
    rw [MemberStats.record, KindCounts.sum_toList_increment, counts.total, List.length_append,
      List.length_singleton]

theorem countP_status (calls : List CallRecord) :
    (calls.countP fun call => call.status = .success) + (calls.countP fun call => call.status = .error) =
      calls.length := by
  induction calls with
  | nil => rfl
  | cons call rest inductionHypothesis =>
      rw [List.countP_cons, List.countP_cons, List.length_cons, ← inductionHypothesis]
      cases call.status <;> simp <;> omega

theorem Counts.calls_eq (counts : stats.Counts calls) : stats.calls = calls.length := by
  rw [MemberStats.calls, counts.successes, counts.errors, countP_status]

theorem Counts.latency_count (counts : stats.Counts calls) : stats.latencyMillis.count = calls.length := by
  rw [counts.latency, RunningStats.ofValues_count, List.length_map]

end MemberStats

namespace CallStats

/-! ## One more call -/

section Record

variable {members : List (Nat × MemberStats)} (call : CallRecord)

theorem mem_indices_recordAmong (members : List (Nat × MemberStats)) (index : Nat) :
    index ∈ (recordAmong call members).map Prod.fst <->
      index = call.index ∨ index ∈ members.map Prod.fst := by
  induction members with
  | nil => simp [recordAmong]
  | cons member rest inductionHypothesis =>
      rcases member with ⟨next, stats⟩
      rw [recordAmong]
      split
      · rw [List.map_cons, List.mem_cons]
      · split
        · rename_i same
          simp only [List.map_cons, List.mem_cons, same, or_self_left]
        · rw [List.map_cons, List.map_cons, List.mem_cons, List.mem_cons, inductionHypothesis, or_left_comm]

theorem recordAmong_ascending (ascending : (members.map Prod.fst).Pairwise (· < ·)) :
    ((recordAmong call members).map Prod.fst).Pairwise (· < ·) := by
  induction members with
  | nil => exact List.pairwise_singleton _ _
  | cons member rest inductionHypothesis =>
      rcases member with ⟨next, stats⟩
      rw [List.map_cons, List.pairwise_cons] at ascending
      rw [recordAmong]
      split
      · rename_i isBefore
        rw [List.map_cons, List.map_cons, List.pairwise_cons, List.pairwise_cons]
        refine ⟨?_, ascending⟩
        intro index isMember
        rcases List.mem_cons.mp isMember with rfl | isLater
        · exact isBefore
        · exact Nat.lt_trans isBefore (ascending.1 index isLater)
      · split
        · rename_i same
          rw [List.map_cons, List.pairwise_cons]
          exact ascending
        · rename_i notBefore different
          rw [List.map_cons, List.pairwise_cons]
          refine ⟨?_, inductionHypothesis ascending.2⟩
          intro index isMember
          rcases (mem_indices_recordAmong call rest index).mp isMember with rfl | isLater
          · exact Nat.lt_of_le_of_ne (Nat.not_lt.mp notBefore) fun same => different same.symm
          · exact ascending.1 index isLater

/-- An entry after a call is an old entry of another member, or the entry of the called member with one call
more; and this was made of its old entry, or of nothing if it had none. -/
theorem entry_of_mem_recordAmong (ascending : (members.map Prod.fst).Pairwise (· < ·))
    {entry : Nat × MemberStats} (isEntry : entry ∈ recordAmong call members) :
    (entry.1 ≠ call.index ∧ entry ∈ members) ∨
      exists stats, entry = (call.index, stats.record call) ∧
        ((call.index, stats) ∈ members ∨ (stats = .zero ∧ call.index ∉ members.map Prod.fst)) := by
  induction members with
  | nil =>
      have isNew : entry = (call.index, MemberStats.zero.record call) := List.mem_singleton.mp isEntry
      exact Or.inr ⟨.zero, isNew, Or.inr ⟨rfl, List.not_mem_nil⟩⟩
  | cons member rest inductionHypothesis =>
      rcases member with ⟨next, stats⟩
      rw [List.map_cons, List.pairwise_cons] at ascending
      have above (later : Nat × MemberStats) (isLater : later ∈ rest) : next < later.1 :=
        ascending.1 later.1 (List.mem_map_of_mem isLater)
      rw [recordAmong] at isEntry
      split at isEntry
      · rename_i isBefore
        have notOld : call.index ∉ ((next, stats) :: rest).map Prod.fst := by
          intro isOld
          rcases List.mem_cons.mp isOld with same | isLater
          · exact Nat.ne_of_lt isBefore same
          · exact Nat.lt_asymm isBefore (ascending.1 _ isLater)
        rcases List.mem_cons.mp isEntry with isNew | isOld
        · exact Or.inr ⟨.zero, isNew, Or.inr ⟨rfl, notOld⟩⟩
        · exact Or.inl ⟨fun same => notOld (same ▸ List.mem_map_of_mem isOld), isOld⟩
      · split at isEntry
        · rename_i same
          rcases List.mem_cons.mp isEntry with isCalled | isOther
          · exact Or.inr ⟨stats, same ▸ isCalled, Or.inl (same ▸ List.mem_cons_self)⟩
          · exact Or.inl ⟨fun isCalled => Nat.ne_of_gt (same ▸ above entry isOther) isCalled,
              List.mem_cons_of_mem _ isOther⟩
        · rename_i different
          rcases List.mem_cons.mp isEntry with rfl | isLater
          · exact Or.inl ⟨fun same => different same.symm, List.mem_cons_self⟩
          · rcases inductionHypothesis ascending.2 isLater with
              ⟨isOther, isOld⟩ | ⟨before, isCalled, isOld | ⟨wasZero, notLater⟩⟩
            · exact Or.inl ⟨isOther, List.mem_cons_of_mem _ isOld⟩
            · exact Or.inr ⟨before, isCalled, Or.inl (List.mem_cons_of_mem _ isOld)⟩
            · refine Or.inr ⟨before, isCalled, Or.inr ⟨wasZero, ?_⟩⟩
              exact fun isOld => (List.mem_cons.mp isOld).elim different notLater

/-- A sum over the members grows by what the call adds to its member. -/
theorem sum_recordAmong (members : List (Nat × MemberStats)) {size : MemberStats -> Nat} {gain : Nat}
    (none : size .zero = 0) (grows : forall stats, size (stats.record call) = size stats + gain) :
    ((recordAmong call members).map fun entry => size entry.2).sum =
      (members.map fun entry => size entry.2).sum + gain := by
  induction members with
  | nil => simp [recordAmong, grows, none]
  | cons member rest inductionHypothesis =>
      rcases member with ⟨next, stats⟩
      rw [recordAmong]
      split
      · simp only [List.map_cons, List.sum_cons, grows, none]
        omega
      · split
        · simp only [List.map_cons, List.sum_cons, grows]
          omega
        · simp only [List.map_cons, List.sum_cons, inductionHypothesis]
          omega

end Record

/-! ## The calls that count -/

/-- The calls of one member. -/
def callsOf (index : Nat) (calls : List CallRecord) : List CallRecord :=
  calls.filter fun call => call.index = index

theorem callsOf_concat (index : Nat) (calls : List CallRecord) (call : CallRecord) :
    callsOf index (calls ++ [call]) =
      if call.index = index then callsOf index calls ++ [call] else callsOf index calls := by
  rw [callsOf, List.filter_append, callsOf]
  split
  · rename_i same
    rw [List.filter_singleton, decide_eq_true same, Bool.cond_true]
  · rename_i different
    rw [List.filter_singleton, decide_eq_false different, Bool.cond_false, List.append_nil]

theorem callsOf_eq_nil {index : Nat} {calls : List CallRecord}
    (notCalled : index ∉ calls.map CallRecord.index) : callsOf index calls = [] := by
  rw [callsOf, List.filter_eq_nil_iff]
  intro call isCall isOfIndex
  exact notCalled (of_decide_eq_true isOfIndex ▸ List.mem_map_of_mem isCall)

/-- That the entries of the members are those of a list of calls. -/
structure Tallies (names : List String) (stats : CallStats) (calls : List CallRecord) : Prop where
  names_eq : stats.names = names
  ascending : (stats.members.map Prod.fst).Pairwise (· < ·)
  mem_iff : forall index, index ∈ stats.members.map Prod.fst <-> index ∈ calls.map CallRecord.index
  counts : forall entry, entry ∈ stats.members -> entry.2.Counts (callsOf entry.1 calls)
  totalCalls : stats.totalCalls = calls.length
  totalErrors : stats.totalErrors = calls.countP fun call => call.status = .error

variable {names : List String} {stats : CallStats} {calls : List CallRecord}

theorem start_tallies (names : List String) : Tallies names (start names) [] where
  names_eq := rfl
  ascending := List.Pairwise.nil
  mem_iff := fun _ => Iff.rfl
  counts := fun _ isEntry => nomatch isEntry
  totalCalls := rfl
  totalErrors := rfl

/-- One more call keeps the entries those of the calls. -/
theorem Tallies.record (tallies : Tallies names stats calls) (call : CallRecord) :
    Tallies names (stats.record call) (calls ++ [call]) := by
  constructor
  case names_eq => exact tallies.names_eq
  case ascending => exact recordAmong_ascending call tallies.ascending
  case mem_iff =>
    intro index
    rw [CallStats.record, mem_indices_recordAmong, tallies.mem_iff, List.map_append, List.map_singleton,
      List.mem_append, List.mem_singleton, or_comm]
  case counts =>
    intro entry isEntry
    rcases entry_of_mem_recordAmong call tallies.ascending isEntry with
      ⟨isOther, isOld⟩ | ⟨before, rfl, isOld | ⟨rfl, notOld⟩⟩
    · rw [callsOf_concat, if_neg isOther.symm]
      exact tallies.counts entry isOld
    · rw [callsOf_concat, if_pos rfl]
      exact (tallies.counts _ isOld).record call
    · rw [tallies.mem_iff] at notOld
      rw [callsOf_concat, if_pos rfl, callsOf_eq_nil notOld]
      exact MemberStats.zero_counts.record call
  case totalCalls =>
    have grows (member : MemberStats) : (member.record call).calls = member.calls + 1 := by
      unfold MemberStats.calls MemberStats.record
      cases call.status <;> simp <;> omega
    rw [List.length_append, List.length_singleton, ← tallies.totalCalls]
    exact sum_recordAmong call stats.members rfl grows
  case totalErrors =>
    have grows (member : MemberStats) :
        (member.record call).errors = member.errors + if call.status = .error then 1 else 0 := rfl
    rw [List.countP_append, ← tallies.totalErrors, List.countP_singleton]
    simp only [decide_eq_true_eq]
    exact sum_recordAmong call stats.members rfl grows

/-! ## Any operations -/

/-- What can happen to statistics: a call is told to them, or through their hook, or through several of their
hooks together; or all calls are forgotten. -/
inductive Operation where
  | record (call : CallRecord)
  | hook (call : CallRecord)
  | combined (count : Nat) (call : CallRecord)
  | reset

/-- The statistics after an operation. -/
def apply (stats : CallStats) : Operation -> CallStats
  | .record call => stats.record call
  | .hook call => CallStats.hook call stats
  | .combined count call => Hook.combine (List.replicate count CallStats.hook) call stats
  | .reset => stats.reset

/-- The calls since the last reset after an operation. -/
def extend (calls : List CallRecord) : Operation -> List CallRecord
  | .record call => calls ++ [call]
  | .hook call => calls ++ [call]
  | .combined count call => calls ++ List.replicate count call
  | .reset => []

theorem Tallies.combined (tallies : Tallies names stats calls) (count : Nat) (call : CallRecord) :
    Tallies names (Hook.combine (List.replicate count CallStats.hook) call stats)
      (calls ++ List.replicate count call) := by
  induction count generalizing stats calls with
  | zero => exact (List.append_nil calls).symm ▸ tallies
  | succ count inductionHypothesis =>
      rw [List.replicate_succ, List.replicate_succ, List.append_cons]
      exact inductionHypothesis (tallies.record call)

theorem Tallies.reset (tallies : Tallies names stats calls) : Tallies names stats.reset [] := by
  have forgotten : stats.reset = start names := congrArg start tallies.names_eq
  exact forgotten ▸ start_tallies names

/-- One operation keeps the entries those of the calls since the last reset. -/
theorem Tallies.apply (tallies : Tallies names stats calls) (operation : Operation) :
    Tallies names (stats.apply operation) (extend calls operation) := by
  cases operation with
  | record call => exact tallies.record call
  | hook call => exact tallies.record call
  | combined count call => exact tallies.combined count call
  | reset => exact tallies.reset

/-- Statistics after operations, from none on. -/
def run (names : List String) (operations : List Operation) : CallStats :=
  operations.foldl apply (start names)

/-- The calls since the last reset. -/
def callsSinceReset (operations : List Operation) : List CallRecord :=
  operations.foldl extend []

theorem run_tallies (names : List String) (operations : List Operation) :
    Tallies names (run names operations) (callsSinceReset operations) := by
  induction operations using List.reverseRecOn with
  | nil => exact start_tallies names
  | append_singleton earlier last inductionHypothesis =>
      rw [run, callsSinceReset, List.foldl_concat, List.foldl_concat]
      exact inductionHypothesis.apply last

/-! ## Summaries -/

/-- The summary of one member that the calls of a federation define. -/
def memberSummaryOf (names : List String) (calls : List CallRecord) (index : Nat) : MemberSummary where
  index := index
  name := names[index]?.getD (toString index)
  successes := (callsOf index calls).countP fun call => call.status = .success
  errors := (callsOf index calls).countP fun call => call.status = .error
  latencyMillis := .ofValues ((callsOf index calls).map fun call => call.seconds * 1000.0)
  perKind :=
    (ApiKind.all.map fun kind => (kind, (callsOf index calls).countP fun call => call.kind = kind)).filter
      fun entry => entry.2 != 0

/-- The summary that the calls of a federation define: one entry for each index that occurs, in ascending
order. -/
def summaryOf (names : List String) (calls : List CallRecord) : List MemberSummary :=
  (calls.map CallRecord.index).toFinset.sort.map (memberSummaryOf names calls)

theorem Tallies.indices_eq (tallies : Tallies names stats calls) :
    stats.members.map Prod.fst = (calls.map CallRecord.index).toFinset.sort := by
  refine tallies.ascending.eq_of_mem_iff (Finset.sortedLT_sort _).pairwise ?_
  intro index
  rw [tallies.mem_iff, Finset.mem_sort, List.mem_toFinset]

theorem Tallies.summary_eq (tallies : Tallies names stats calls) : stats.summary = summaryOf names calls := by
  rw [summaryOf, ← tallies.indices_eq, summary, List.map_map, tallies.names_eq]
  apply List.map_congr_left
  intro entry isEntry
  have counts := tallies.counts entry isEntry
  have perKind : entry.2.perKind.toList = (memberSummaryOf names calls entry.1).perKind := by
    simp only [KindCounts.toList, counts.perKind, memberSummaryOf]
  rw [counts.successes, counts.errors, counts.latency, perKind]
  rfl

/-- That a summary is the one of a list of calls: equal to the one that the list defines, with one entry for
each member that was called, in ascending order, and with counters that agree with each other. -/
structure Summarizes (names : List String) (stats : CallStats) (calls : List CallRecord) : Prop where
  summary_eq : stats.summary = summaryOf names calls
  ascending : (stats.summary.map MemberSummary.index).Pairwise (· < ·)
  mem_iff : forall index, index ∈ stats.summary.map MemberSummary.index <->
    exists call, call ∈ calls ∧ call.index = index
  outcomes : forall member, member ∈ stats.summary ->
    member.successes + member.errors = member.latencyMillis.count
  perKind : forall member, member ∈ stats.summary ->
    (member.perKind.map Prod.snd).sum = member.latencyMillis.count
  totalCalls : stats.totalCalls = calls.length
  totalErrors : stats.totalErrors = calls.countP fun call => call.status = .error

/-- Whatever has happened to the statistics, their summary is the one of the calls since the last reset. -/
theorem summary_of_calls (names : List String) (operations : List Operation) :
    Summarizes names (run names operations) (callsSinceReset operations) := by
  have tallies := run_tallies names operations
  have indices : (run names operations).summary.map MemberSummary.index =
      (run names operations).members.map Prod.fst := List.map_map
  constructor
  case summary_eq => exact tallies.summary_eq
  case ascending => exact indices ▸ tallies.ascending
  case mem_iff =>
    intro index
    rw [indices, tallies.mem_iff, List.mem_map]
  case outcomes =>
    intro member isMember
    rcases List.mem_map.mp isMember with ⟨entry, isEntry, rfl⟩
    have counts := tallies.counts entry isEntry
    exact counts.calls_eq.trans counts.latency_count.symm
  case perKind =>
    intro member isMember
    rcases List.mem_map.mp isMember with ⟨entry, isEntry, rfl⟩
    have counts := tallies.counts entry isEntry
    exact counts.total.trans counts.latency_count.symm
  case totalCalls => exact tallies.totalCalls
  case totalErrors => exact tallies.totalErrors

end CallStats
end QueryFederation
