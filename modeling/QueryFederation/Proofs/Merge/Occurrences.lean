import Mathlib.Data.List.Nodup
import QueryFederation.Merge.Results

/-!
# First occurrences

The union of lists and the union of vectors keep the first occurrence of each entry, where the entries
of a vector count as equal when their label sets are.  Both are the same walk over keys, and what is said
of them here follows from three laws of that walk: it can be cut in two, what it has dropped may be
dropped before it, and it depends only on which keys have been met.
-/

namespace QueryFederation
namespace Merge

section Walk

variable {Entry Key : Type} [DecidableEq Key] {key : Entry -> Key} {met less : List Key}
  {entries : List Entry}

/-- The first occurrences of keys that were not met before. -/
def unmetBy (key : Entry -> Key) (met : List Key) : List Entry -> List Entry
  | [] => []
  | entry :: rest =>
      if key entry ∈ met then unmetBy key met rest
      else entry :: unmetBy key (key entry :: met) rest

theorem mem_keys_unmetBy {name : Key} :
    name ∈ (unmetBy key met entries).map key <-> name ∈ entries.map key ∧ name ∉ met := by
  induction entries generalizing met with
  | nil => simp [unmetBy]
  | cons entry rest inductionHypothesis =>
      rw [unmetBy]
      by_cases known : key entry ∈ met
      · rw [if_pos known, inductionHypothesis]
        simp only [List.map_cons, List.mem_cons]
        constructor
        · exact fun ⟨later, new⟩ => ⟨.inr later, new⟩
        · rintro ⟨rfl | later, new⟩
          · exact absurd known new
          · exact ⟨later, new⟩
      · rw [if_neg known, List.map_cons, List.mem_cons, inductionHypothesis]
        simp only [List.map_cons, List.mem_cons, not_or]
        constructor
        · rintro (rfl | ⟨later, _, new⟩)
          · exact ⟨.inl rfl, known⟩
          · exact ⟨.inr later, new⟩
        · rintro ⟨same | later, new⟩
          · exact .inl same
          · by_cases same : name = key entry
            · exact .inl same
            · exact .inr ⟨later, same, new⟩

theorem unmetBy_sublist (key : Entry -> Key) (met : List Key) (entries : List Entry) :
    (unmetBy key met entries).Sublist entries := by
  induction entries generalizing met with
  | nil => exact .slnil
  | cons entry rest inductionHypothesis =>
      rw [unmetBy]
      split
      · exact (inductionHypothesis met).cons entry
      · exact (inductionHypothesis (key entry :: met)).cons_cons entry

theorem unmetBy_congr {other : List Key} (same : forall name, name ∈ met <-> name ∈ other)
    (entries : List Entry) : unmetBy key met entries = unmetBy key other entries := by
  induction entries generalizing met other with
  | nil => rfl
  | cons entry rest inductionHypothesis =>
      have sameAfter : forall name, name ∈ key entry :: met <-> name ∈ key entry :: other := by
        intro name
        rw [List.mem_cons, List.mem_cons, same]
      simp only [unmetBy, same, inductionHypothesis same, inductionHypothesis sameAfter]

theorem unmetBy_append (key : Entry -> Key) (met : List Key) (first second : List Entry) :
    unmetBy key met (first ++ second) =
      unmetBy key met first ++ unmetBy key (first.map key ++ met) second := by
  induction first generalizing met with
  | nil => rfl
  | cons entry rest inductionHypothesis =>
      rw [List.cons_append, unmetBy, unmetBy]
      by_cases known : key entry ∈ met
      · rw [if_pos known, if_pos known, inductionHypothesis]
        congr 1
        apply unmetBy_congr
        intro name
        simp only [List.map_cons, List.cons_append, List.mem_cons, List.mem_append]
        constructor
        · exact .inr
        · rintro (rfl | later)
          · exact .inr known
          · exact later
      · rw [if_neg known, if_neg known, inductionHypothesis, List.cons_append]
        congr 2
        apply unmetBy_congr
        intro name
        simp only [List.map_cons, List.cons_append, List.mem_cons, List.mem_append]
        tauto

/-- A walk over what an earlier walk has left keeps what it would have kept of everything. -/
theorem unmetBy_unmetBy (fewer : forall name, name ∈ less -> name ∈ met) (entries : List Entry) :
    unmetBy key met (unmetBy key less entries) = unmetBy key met entries := by
  induction entries generalizing met less with
  | nil => rfl
  | cons entry rest inductionHypothesis =>
      have fewerAfter : forall name, name ∈ key entry :: less -> name ∈ key entry :: met := by
        intro name isKnown
        rcases List.mem_cons.mp isKnown with rfl | before
        · exact List.mem_cons_self
        · exact List.mem_cons_of_mem _ (fewer name before)
      by_cases known : key entry ∈ less
      · rw [unmetBy, if_pos known, unmetBy, if_pos (fewer _ known), inductionHypothesis fewer]
      · rw [unmetBy, if_neg known]
        by_cases knownLater : key entry ∈ met
        · have stillFewer : forall name, name ∈ key entry :: less -> name ∈ met := by
            intro name isKnown
            rcases List.mem_cons.mp isKnown with rfl | before
            · exact knownLater
            · exact fewer name before
          rw [unmetBy, if_pos knownLater, unmetBy, if_pos knownLater, inductionHypothesis stillFewer]
        · rw [unmetBy, if_neg knownLater, unmetBy, if_neg knownLater, inductionHypothesis fewerAfter]

theorem unmetBy_distinct (key : Entry -> Key) (met : List Key) (entries : List Entry) :
    ((unmetBy key met entries).map key).Nodup := by
  induction entries generalizing met with
  | nil => exact List.nodup_nil
  | cons entry rest inductionHypothesis =>
      rw [unmetBy]
      by_cases known : key entry ∈ met
      · rw [if_pos known]
        exact inductionHypothesis met
      · rw [if_neg known, List.map_cons, List.nodup_cons]
        refine ⟨?_, inductionHypothesis (key entry :: met)⟩
        intro again
        exact (mem_keys_unmetBy.mp again).2 List.mem_cons_self

/-- Nothing is dropped where no key is met twice. -/
theorem unmetBy_of_distinct (distinct : (entries.map key).Nodup)
    (new : forall name, name ∈ entries.map key -> name ∉ met) : unmetBy key met entries = entries := by
  induction entries generalizing met with
  | nil => rfl
  | cons entry rest inductionHypothesis =>
      rw [List.map_cons, List.nodup_cons] at distinct
      have isNew : key entry ∉ met := new _ List.mem_cons_self
      rw [unmetBy, if_neg isNew, inductionHypothesis distinct.2]
      intro name isLater known
      rcases List.mem_cons.mp known with rfl | before
      · exact distinct.1 isLater
      · exact new name (List.mem_cons_of_mem _ isLater) before

/-- Nothing is left of entries whose keys have all been met. -/
theorem unmetBy_eq_nil (known : forall name, name ∈ entries.map key -> name ∈ met) :
    unmetBy key met entries = [] := by
  rw [← List.map_eq_nil_iff (f := key), List.eq_nil_iff_forall_not_mem]
  intro name isLeft
  rcases mem_keys_unmetBy.mp isLeft with ⟨isThere, isNew⟩
  exact isNew (known name isThere)

/-- Whether an entry passes a test that only looks at keys does not depend on the other entries, so the
test may come before the walk. -/
theorem filter_unmetBy {keep : Key -> Bool} {other : List Key}
    (same : forall name, keep name = true -> (name ∈ met <-> name ∈ other)) (entries : List Entry) :
    (unmetBy key met entries).filter (fun entry => keep (key entry)) =
      unmetBy key other (entries.filter fun entry => keep (key entry)) := by
  induction entries generalizing met other with
  | nil => rfl
  | cons entry rest inductionHypothesis =>
      rw [unmetBy]
      by_cases kept : keep (key entry) = true
      · rw [List.filter_cons, if_pos kept, unmetBy]
        by_cases known : key entry ∈ met
        · rw [if_pos known, if_pos ((same _ kept).mp known)]
          exact inductionHypothesis same
        · rw [if_neg known, if_neg (mt (same _ kept).mpr known), List.filter_cons, if_pos kept]
          have sameAfter : forall name, keep name = true ->
              (name ∈ key entry :: met <-> name ∈ key entry :: other) := by
            intro name isKept
            rw [List.mem_cons, List.mem_cons, same name isKept]
          rw [inductionHypothesis sameAfter]
      · rw [List.filter_cons, if_neg kept]
        by_cases known : key entry ∈ met
        · rw [if_pos known]
          exact inductionHypothesis same
        · rw [if_neg known, List.filter_cons, if_neg kept]
          -- The walk remembers an entry that the test refuses, which makes no difference.
          apply inductionHypothesis
          intro name isKept
          have different : name ≠ key entry := by
            rintro rfl
            exact kept isKept
          rw [List.mem_cons, same name isKept]
          exact or_iff_right different

/-- What is left is the entries with new keys, one for each key. -/
theorem unmetBy_eq_eraseDupsBy (key : Entry -> Key) (met : List Key) (entries : List Entry) :
    unmetBy key met entries =
      (entries.filter fun entry => decide (key entry ∉ met)).eraseDupsBy
        fun entry other => key entry == key other := by
  induction entries generalizing met with
  | nil => rfl
  | cons entry rest inductionHypothesis =>
      rw [unmetBy]
      by_cases known : key entry ∈ met
      · rw [if_pos known, inductionHypothesis, List.filter_cons_of_neg (by simpa using known)]
      · rw [if_neg known, inductionHypothesis, List.filter_cons_of_pos (by simpa using known),
          List.eraseDupsBy_cons, List.filter_filter]
        congr 3
        funext other
        by_cases same : key other = key entry <;> simp [same]

/-- Entries with a new key are found where they were. -/
theorem find?_unmetBy {name : Key} (isNew : name ∉ met) (entries : List Entry) :
    (unmetBy key met entries).find? (fun entry => decide (key entry = name)) =
      entries.find? fun entry => decide (key entry = name) := by
  induction entries generalizing met with
  | nil => rfl
  | cons entry rest inductionHypothesis =>
      rw [unmetBy]
      by_cases same : key entry = name
      · have isUnmet : key entry ∉ met := same ▸ isNew
        rw [if_neg isUnmet, List.find?_cons_of_pos (by simpa using same),
          List.find?_cons_of_pos (by simpa using same)]
      · rw [List.find?_cons_of_neg (by simpa using same)]
        split
        · exact inductionHypothesis isNew
        · rw [List.find?_cons_of_neg (by simpa using same)]
          exact inductionHypothesis (List.not_mem_cons_of_ne_of_not_mem (Ne.symm same) isNew)

end Walk

section Lists

variable {Entry : Type} [DecidableEq Entry]

theorem unmet_eq_unmetBy (met entries : List Entry) : unmet met entries = unmetBy id met entries := by
  induction entries generalizing met with
  | nil => rfl
  | cons entry rest inductionHypothesis =>
      simp only [unmet, unmetBy, id_eq, inductionHypothesis]

theorem distinct_eq_unmetBy (entries : List Entry) : distinct entries = unmetBy id [] entries :=
  unmet_eq_unmetBy [] entries

/-- The first occurrences in a list put together from two. -/
theorem union_eq (first second : List Entry) :
    union first second = distinct first ++ unmetBy id first second := by
  unfold union
  rw [distinct_eq_unmetBy, unmetBy_append, distinct_eq_unmetBy, List.map_id, List.append_nil]

theorem mem_distinct {entry : Entry} {entries : List Entry} :
    entry ∈ distinct entries <-> entry ∈ entries := by
  have keys : entry ∈ (unmetBy id [] entries).map id <-> entry ∈ entries.map id ∧ entry ∉ [] :=
    mem_keys_unmetBy
  rw [distinct_eq_unmetBy]
  simpa using keys

theorem union_nodup (first second : List Entry) : (union first second).Nodup := by
  have nodup := unmetBy_distinct id [] (first ++ second)
  rw [List.map_id] at nodup
  rwa [union, distinct_eq_unmetBy]

theorem union_assoc (first second third : List Entry) :
    union (union first second) third = union first (union second third) := by
  have left : union (union first second) third = union (first ++ second) third := by
    rw [union_eq, union_eq (first ++ second)]
    have again : distinct (union first second) = union first second := by
      rw [distinct_eq_unmetBy]
      exact unmetBy_of_distinct (by rw [List.map_id]; exact union_nodup first second) (by simp)
    rw [again]
    congr 1
    exact unmetBy_congr (fun entry => mem_distinct) third
  have right : union first (union second third) = union first (second ++ third) := by
    have again : unmetBy id first (union second third) = unmetBy id first (second ++ third) := by
      rw [union, distinct_eq_unmetBy]
      exact unmetBy_unmetBy (by intro entry known; cases known) (second ++ third)
    rw [union_eq first (union second third), again, union_eq]
  rw [left, right, union, union, List.append_assoc]

/-- Entries may be selected before lists are united or after it. -/
theorem filter_union (keep : Entry -> Bool) (first second : List Entry) :
    (union first second).filter keep = union (first.filter keep) (second.filter keep) := by
  rw [union, distinct_eq_unmetBy, union, distinct_eq_unmetBy, ← List.filter_append]
  exact filter_unmetBy (fun _ _ => .rfl) (first ++ second)

theorem distinct_of_nodup {entries : List Entry} (nodup : entries.Nodup) :
    distinct entries = entries := by
  rw [distinct_eq_unmetBy]
  exact unmetBy_of_distinct (by rwa [List.map_id]) (by simp)

theorem nil_union {entries : List Entry} (nodup : entries.Nodup) : union [] entries = entries :=
  distinct_of_nodup nodup

theorem union_nil {entries : List Entry} (nodup : entries.Nodup) : union entries [] = entries := by
  rw [union, List.append_nil, distinct_of_nodup nodup]

end Lists

section Vectors

theorem unmetSeries_eq_unmetBy (met : List LabelSet) (series : List InstantSample) :
    unmetSeries met series = unmetBy InstantSample.metric met series := by
  induction series generalizing met with
  | nil => rfl
  | cons first rest inductionHypothesis =>
      simp only [unmetSeries, unmetBy, inductionHypothesis]

theorem vectors_eq (first second : List InstantSample) :
    vectors first second =
      first ++ unmetBy InstantSample.metric (first.map InstantSample.metric) second := by
  rw [vectors, unmetSeries_eq_unmetBy]

/-- The label sets of a merged vector are those of both. -/
theorem mem_metrics_vectors {metric : LabelSet} {first second : List InstantSample} :
    metric ∈ (vectors first second).map InstantSample.metric <->
      metric ∈ first.map InstantSample.metric ∨ metric ∈ second.map InstantSample.metric := by
  rw [vectors_eq, List.map_append, List.mem_append, mem_keys_unmetBy]
  tauto

/-- Vectors merged one after the other are merged as if they were one. -/
theorem vectors_append (first second third : List InstantSample) :
    vectors (vectors first second) third = vectors first (second ++ third) := by
  have sameMet : unmetBy InstantSample.metric ((vectors first second).map InstantSample.metric) third =
      unmetBy InstantSample.metric
        (second.map InstantSample.metric ++ first.map InstantSample.metric) third := by
    apply unmetBy_congr
    intro metric
    rw [mem_metrics_vectors, List.mem_append, or_comm]
  rw [vectors_eq (vectors first second), sameMet, vectors_eq, vectors_eq, unmetBy_append,
    List.append_assoc]

theorem vectors_assoc (first second third : List InstantSample) :
    vectors (vectors first second) third = vectors first (vectors second third) := by
  have again : unmetBy InstantSample.metric ((vectors first second).map InstantSample.metric)
        (unmetBy InstantSample.metric (second.map InstantSample.metric) third) =
      unmetBy InstantSample.metric ((vectors first second).map InstantSample.metric) third :=
    unmetBy_unmetBy (fun metric known => mem_metrics_vectors.mpr (.inr known)) third
  rw [vectors_eq second third, ← vectors_append, vectors_eq (vectors first second),
    vectors_eq (vectors first second), again]

theorem vectors_distinct {first : List InstantSample}
    (distinct : (first.map InstantSample.metric).Nodup) (second : List InstantSample) :
    ((vectors first second).map InstantSample.metric).Nodup := by
  rw [vectors_eq, List.map_append]
  refine List.nodup_append.mpr ⟨distinct, unmetBy_distinct _ _ _, ?_⟩
  rintro metric inFirst _ inSecond rfl
  exact (mem_keys_unmetBy.mp inSecond).2 inFirst

theorem nil_vectors {series : List InstantSample}
    (distinct : (series.map InstantSample.metric).Nodup) : vectors [] series = series := by
  rw [vectors_eq]
  exact unmetBy_of_distinct distinct (by simp)

theorem vectors_nil (series : List InstantSample) : vectors series [] = series := by
  rw [vectors_eq, unmetBy, List.append_nil]

end Vectors

end Merge
end QueryFederation
