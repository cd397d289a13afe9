import QueryFederation.Proofs.Merge.Occurrences
import QueryFederation.Proofs.Merge.Running

/-!
# Which sample of a series is shown

Of an instant vector only the first sample of a series counts.  When vectors are merged, each into what the
earlier ones have come to, the first vector stays as it is, and of the others those series follow that were
not there before, each where it occurs first.  So every series is shown as the first vector has it that has
it at all.  Neither timestamps nor the window have a part in this.
-/

namespace QueryFederation
namespace Merge

/-- The sample of the first series with a label set. -/
def sampleOf? (metric : LabelSet) (series : List InstantSample) : Option Sample :=
  (series.find? fun one => decide (one.metric = metric)).map InstantSample.sample

/-- The series of a first vector, and behind them those of the others that are new, each where it occurs
first. -/
def firstSeries (first : List InstantSample) (rest : List (List InstantSample)) : List InstantSample :=
  let isNew (series : InstantSample) := first.all fun earlier => earlier.metric != series.metric
  first ++ (rest.flatten.filter isNew).eraseDupsBy fun series other => series.metric == other.metric

section Lookup

variable {metric : LabelSet}

theorem sampleOf?_eq_none_iff {series : List InstantSample} :
    sampleOf? metric series = none <-> metric ∉ series.map InstantSample.metric := by
  simp [sampleOf?, List.find?_eq_none]

/-- What is shown of a series is what the first vector has of it, or else the second one. -/
theorem sampleOf?_vectors (metric : LabelSet) (first second : List InstantSample) :
    sampleOf? metric (vectors first second) =
      (sampleOf? metric first).or (sampleOf? metric second) := by
  rw [vectors_eq, sampleOf?, List.find?_append]
  cases found : first.find? fun one => decide (one.metric = metric) with
  | some one => simp [sampleOf?, found]
  | none =>
      have isNew : metric ∉ first.map InstantSample.metric := by
        rw [← sampleOf?_eq_none_iff, sampleOf?, found]
        rfl
      rw [find?_unmetBy isNew, sampleOf?, found]
      rfl

end Lookup

section Fold

variable {first : List InstantSample} {rest : List (List InstantSample)}

/-- Vectors behind a first one are merged into it as if they were one. -/
theorem foldl_vectors (first : List InstantSample) (rest : List (List InstantSample)) :
    rest.foldl vectors first = vectors first rest.flatten := by
  induction rest generalizing first with
  | nil => exact (vectors_nil first).symm
  | cons next rest inductionHypothesis =>
      rw [List.foldl_cons, inductionHypothesis, vectors_append, List.flatten_cons]

theorem foldl_vectors_eq_firstSeries (first : List InstantSample) (rest : List (List InstantSample)) :
    rest.foldl vectors first = firstSeries first rest := by
  have isNew_eq : forall series : InstantSample,
      decide (series.metric ∉ first.map InstantSample.metric) =
        first.all fun earlier => earlier.metric != series.metric := by
    intro series
    rw [Bool.eq_iff_iff]
    simp
  rw [foldl_vectors, vectors_eq, unmetBy_eq_eraseDupsBy, firstSeries]
  simp only [isNew_eq]

/-- Vectors are merged under every window alike. -/
theorem fold_vectors (window : Duration) (first : List InstantSample)
    (rest : List (List InstantSample)) :
    fold window ((first :: rest).map .vector) = .ok (some (.vector (firstSeries first rest))) := by
  have merges : forall left right, results window (.vector left) (.vector right) =
      .ok (.vector (vectors left right)) := fun _ _ => rfl
  rw [fold_form merges, running, foldl_vectors_eq_firstSeries]
  rfl

theorem firstSeries_distinct {first : List InstantSample}
    (distinct : (first.map InstantSample.metric).Nodup) (rest : List (List InstantSample)) :
    ((firstSeries first rest).map InstantSample.metric).Nodup := by
  rw [← foldl_vectors_eq_firstSeries, foldl_vectors]
  exact vectors_distinct distinct rest.flatten

theorem sampleOf?_foldl (metric : LabelSet) (first : List InstantSample)
    (rest : List (List InstantSample)) :
    sampleOf? metric (rest.foldl vectors first) =
      (first :: rest).findSome? (sampleOf? metric) := by
  induction rest generalizing first with
  | nil => cases found : sampleOf? metric first <;> simp [found]
  | cons next rest inductionHypothesis =>
      rw [List.foldl_cons, inductionHypothesis, List.findSome?_cons, sampleOf?_vectors,
        List.findSome?_cons, List.findSome?_cons]
      cases sampleOf? metric first <;> rfl

theorem mem_metrics_foldl {metric : LabelSet} :
    metric ∈ (rest.foldl vectors first).map InstantSample.metric <->
      exists vector, vector ∈ first :: rest ∧ metric ∈ vector.map InstantSample.metric := by
  rw [foldl_vectors, mem_metrics_vectors, List.map_flatten, List.mem_flatten]
  simp

/-- A series that is shown comes from the first vector that has it. -/
theorem exists_first_of_mem_foldl {series : InstantSample}
    (isShown : series ∈ rest.foldl vectors first) :
    exists before vector after, first :: rest = before ++ vector :: after ∧ series ∈ vector ∧
      forall earlier, earlier ∈ before -> series.metric ∉ earlier.map InstantSample.metric := by
  induction rest using List.reverseRecOn with
  | nil => exact ⟨[], first, [], rfl, isShown, by simp⟩
  | append_singleton rest last inductionHypothesis =>
      rw [List.foldl_concat, vectors_eq, List.mem_append] at isShown
      rcases isShown with sooner | isLast
      · rcases inductionHypothesis sooner with ⟨before, vector, after, same, inVector, missing⟩
        refine ⟨before, vector, after ++ [last], ?_, inVector, missing⟩
        rw [← List.cons_append, same, List.append_assoc]
        rfl
      · have isNew := (mem_keys_unmetBy.mp (List.mem_map_of_mem isLast)).2
        refine ⟨first :: rest, last, [], rfl, ?_, ?_⟩
        · exact (unmetBy_sublist _ _ last).subset isLast
        · exact fun earlier isEarlier hasSeries =>
            isNew (mem_metrics_foldl.mpr ⟨earlier, isEarlier, hasSeries⟩)

end Fold
end Merge
end QueryFederation
