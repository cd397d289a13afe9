import QueryFederation.Proofs.Merge.Running

/-!
# Results of different shapes

Two results can be merged exactly if they have one shape, and then they come to a result of this shape.  So
what many results come to has the shape of the first one at every step, and the first result of another
shape cannot be merged into it.  What would have come after that makes no difference.
-/

namespace QueryFederation

/-- Whether the first of many results of a shape stands for all of them. -/
def Shape.IsSingle (shape : Shape) : Prop :=
  shape = .scalar ∨ shape = .string

namespace Merge

/-- Whether a result is the first of some later ones whose shape is not that of the first result. -/
def IsFirstOdd (first : QueryResult) (rest : List QueryResult) (odd : QueryResult) : Prop :=
  exists before after, rest = before ++ odd :: after ∧
    (forall result, result ∈ before -> result.shape = first.shape) ∧ odd.shape ≠ first.shape

theorem exists_isFirstOdd {first : QueryResult} {rest : List QueryResult}
    (notAll : ¬ forall result, result ∈ rest -> result.shape = first.shape) :
    exists odd, IsFirstOdd first rest odd := by
  cases found : rest.find? fun result => decide (result.shape ≠ first.shape) with
  | none =>
      rw [List.find?_eq_none] at found
      exact absurd (fun result isLater => by simpa using found result isLater) notAll
  | some odd =>
      rcases List.find?_eq_some_iff_append.mp found with ⟨isOdd, before, after, same, notBefore⟩
      refine ⟨odd, before, after, same, ?_, by simpa using isOdd⟩
      intro result isBefore
      simpa using notBefore result isBefore

/-- That results are merged if they all have one shape, into a result of this shape, and that otherwise the
mismatch is told between the first result and the first one of another shape. -/
structure FoldsByShape (window : Duration) (first : QueryResult) (rest : List QueryResult) : Prop where
  ok_iff : (exists merged, fold window (first :: rest) = .ok (some merged)) <->
    forall result, result ∈ rest -> result.shape = first.shape
  shape_eq : forall merged, fold window (first :: rest) = .ok (some merged) ->
    merged.shape = first.shape
  single_eq : first.shape.IsSingle ->
    forall merged, fold window (first :: rest) = .ok (some merged) -> merged = first
  error_iff : forall mismatch, fold window (first :: rest) = .error mismatch <->
    exists odd, IsFirstOdd first rest odd ∧ mismatch = ⟨first.shape, odd.shape⟩

section Shapes

variable {window : Duration} {first : QueryResult} {rest : List QueryResult}

theorem results_of_shape_eq (window : Duration) {second : QueryResult} (same : second.shape = first.shape) :
    exists merged, results window first second = .ok merged ∧ merged.shape = first.shape ∧
      (first.shape.IsSingle -> merged = first) := by
  cases first with
  | scalar sample =>
      cases second <;> cases same
      exact ⟨_, rfl, rfl, fun _ => rfl⟩
  | vector series =>
      cases second <;> cases same
      exact ⟨_, rfl, rfl, fun single => by rcases single with single | single <;> cases single⟩
  | matrix series =>
      cases second <;> cases same
      exact ⟨_, rfl, rfl, fun single => by rcases single with single | single <;> cases single⟩
  | string sample =>
      cases second <;> cases same
      exact ⟨_, rfl, rfl, fun _ => rfl⟩

theorem results_of_shape_ne (window : Duration) {second : QueryResult}
    (different : second.shape ≠ first.shape) :
    results window first second = .error ⟨first.shape, second.shape⟩ := by
  cases first <;> cases second <;> first | rfl | exact absurd rfl different

/-- Results of one shape are merged into a result of this shape. -/
theorem foldlM_results_of_all (window : Duration)
    (same : forall result, result ∈ rest -> result.shape = first.shape) :
    exists merged, rest.foldlM (results window) first = .ok merged ∧ merged.shape = first.shape ∧
      (first.shape.IsSingle -> merged = first) := by
  induction rest generalizing first with
  | nil => exact ⟨first, rfl, rfl, fun _ => rfl⟩
  | cons next rest inductionHypothesis =>
      rw [List.forall_mem_cons] at same
      rcases results_of_shape_eq window same.1 with ⟨both, isBoth, bothShape, isFirst⟩
      rcases inductionHypothesis fun result isLater => (same.2 result isLater).trans bothShape.symm with
        ⟨merged, isMerged, mergedShape, isBothToo⟩
      refine ⟨merged, ?_, mergedShape.trans bothShape, ?_⟩
      · rw [List.foldlM_cons, isBoth]
        exact isMerged
      · intro single
        rw [isBothToo (bothShape ▸ single), isFirst single]

/-- The first result of another shape ends the merge, whatever comes after it. -/
theorem foldlM_results_of_odd {odd : QueryResult} (isFirstOdd : IsFirstOdd first rest odd) :
    rest.foldlM (results window) first = .error ⟨first.shape, odd.shape⟩ := by
  rcases isFirstOdd with ⟨before, after, rfl, same, different⟩
  rcases foldlM_results_of_all window same with ⟨merged, isMerged, mergedShape, _⟩
  have fails := results_of_shape_ne window (mergedShape ▸ different)
  rw [List.foldlM_append, isMerged]
  change (odd :: after).foldlM (results window) merged = _
  rw [List.foldlM_cons, fails, mergedShape]
  rfl

theorem foldlM_results_eq_ok_iff :
    (exists merged, rest.foldlM (results window) first = .ok merged) <->
      forall result, result ∈ rest -> result.shape = first.shape := by
  constructor
  · rintro ⟨merged, isMerged⟩
    by_contra notAll
    rcases exists_isFirstOdd notAll with ⟨odd, isFirstOdd⟩
    cases isMerged.symm.trans (foldlM_results_of_odd isFirstOdd)
  · intro same
    rcases foldlM_results_of_all window same with ⟨merged, isMerged, _⟩
    exact ⟨merged, isMerged⟩

theorem foldlM_results_eq_error_iff {mismatch : Mismatch} :
    rest.foldlM (results window) first = .error mismatch <->
      exists odd, IsFirstOdd first rest odd ∧ mismatch = ⟨first.shape, odd.shape⟩ := by
  constructor
  · intro failed
    have notAll : ¬ forall result, result ∈ rest -> result.shape = first.shape := by
      intro same
      rcases foldlM_results_of_all window same with ⟨merged, isMerged, _⟩
      cases failed.symm.trans isMerged
    rcases exists_isFirstOdd notAll with ⟨odd, isFirstOdd⟩
    exact ⟨odd, isFirstOdd, Except.error.inj (failed.symm.trans (foldlM_results_of_odd isFirstOdd))⟩
  · rintro ⟨odd, isFirstOdd, rfl⟩
    exact foldlM_results_of_odd isFirstOdd

theorem foldsByShape (window : Duration) (first : QueryResult) (rest : List QueryResult) :
    FoldsByShape window first rest := by
  have ok_iff : forall merged, fold window (first :: rest) = .ok (some merged) <->
      rest.foldlM (results window) first = .ok merged := by
    intro merged
    rw [fold]
    cases rest.foldlM (results window) first <;> simp [Except.map]
  have known : forall merged, fold window (first :: rest) = .ok (some merged) ->
      merged.shape = first.shape ∧ (first.shape.IsSingle -> merged = first) := by
    intro merged isMerged
    rw [ok_iff] at isMerged
    rcases foldlM_results_of_all window (foldlM_results_eq_ok_iff.mp ⟨merged, isMerged⟩) with
      ⟨same, isSame, ofShape, isFirst⟩
    cases isSame.symm.trans isMerged
    exact ⟨ofShape, isFirst⟩
  constructor
  case ok_iff =>
    simp only [ok_iff]
    exact foldlM_results_eq_ok_iff
  case shape_eq => exact fun merged isMerged => (known merged isMerged).1
  case single_eq => exact fun single merged isMerged => (known merged isMerged).2 single
  case error_iff =>
    intro mismatch
    rw [← foldlM_results_eq_error_iff, fold]
    cases rest.foldlM (results window) first <;> simp [Except.map]

end Shapes

end Merge
end QueryFederation
