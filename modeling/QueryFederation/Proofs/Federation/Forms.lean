import QueryFederation.Proofs.Federation.Verdict
import QueryFederation.Proofs.Merge.Occurrences
import QueryFederation.Proofs.Merge.Running

/-!
# Answers of one form

A merge of two answers may fail, but only because they have different shapes.  Answers of one shape carry
something that is joined without fail: label values, label sets and the series of vectors are joined in
order of first occurrence, matrices are joined under the window of the federation, and of scalars and of
texts the first one stays.

So the verdict on outcomes whose answers have one form is the running merge of what they carry.  Except for
matrices the window has no part in it, and the joining is associative.
-/

namespace QueryFederation

namespace Shape

/-- What a result of a shape carries. -/
abbrev Content : Shape -> Type
  | scalar => Sample
  | vector => List InstantSample
  | matrix => List SampleStream
  | string => StringSample

/-- The result of a shape that carries an entry. -/
def form : (shape : Shape) -> shape.Content -> QueryResult
  | scalar => .scalar
  | vector => .vector
  | matrix => .matrix
  | string => .string

/-- What two results of a shape carry together, under a window in milliseconds. -/
def join (window : Int) : (shape : Shape) -> shape.Content -> shape.Content -> shape.Content
  | scalar => fun first _ => first
  | vector => Merge.vectors
  | matrix => Merge.matrices window
  | string => fun first _ => first

theorem form_injective (shape : Shape) : Function.Injective shape.form := by
  intro first second same
  cases shape <;> cases same <;> rfl

theorem results_form (shape : Shape) (window : Duration) (first second : shape.Content) :
    Merge.results window (shape.form first) (shape.form second) =
      .ok (shape.form (shape.join (Merge.windowMillis window) first second)) := by
  cases shape <;> rfl

theorem exists_form {shape : Shape} {result : QueryResult} (isOfShape : result.shape = shape) :
    exists entry, shape.form entry = result := by
  cases result <;> cases isOfShape <;> exact ⟨_, rfl⟩

/-- Only the samples of matrices are thinned out. -/
theorem join_congr {shape : Shape} (notMatrix : shape ≠ .matrix) (window other : Int) :
    shape.join window = shape.join other := by
  cases shape with
  | matrix => exact absurd rfl notMatrix
  | scalar => rfl
  | vector => rfl
  | string => rfl

theorem join_assoc {shape : Shape} (notMatrix : shape ≠ .matrix) (window : Int)
    (first second third : shape.Content) :
    shape.join window (shape.join window first second) third =
      shape.join window first (shape.join window second third) := by
  cases shape with
  | matrix => exact absurd rfl notMatrix
  | scalar => rfl
  | vector => exact Merge.vectors_assoc first second third
  | string => rfl

end Shape

namespace Request

variable {Answer Entry : Type}

/-- That answers of one form are merged by joining what they carry. -/
structure MergesAs (request : Request Answer) (window : Duration) (form : Entry -> Answer)
    (join : Entry -> Entry -> Entry) : Prop where
  injective : Function.Injective form
  merge_eq : forall first second,
    request.merge window (form first) (form second) = .ok (form (join first second))

namespace MergesAs

variable {request : Request Answer} {window : Duration} {form : Entry -> Answer}
  {join : Entry -> Entry -> Entry} {outcomes : List (Except Fault Answer)} {entries : List Entry}

theorem merging_eq (merges : request.MergesAs window form join)
    (same : Verdict.answers outcomes = entries.map form) :
    Verdict.merging (request.merge window) outcomes = .ok ((Merge.running join entries).map form) := by
  unfold Verdict.merging
  rw [same]
  cases entries with
  | nil => rfl
  | cons first rest =>
      have folded := Merge.foldlM_form merges.merge_eq first rest
      rw [List.map_cons]
      dsimp only
      rw [folded]
      rfl

/-- Merging answers of one form does not fail. -/
theorem breaks_eq_false (merges : request.MergesAs window form join)
    (same : Verdict.answers outcomes = entries.map form) :
    Verdict.breaks (request.merge window) outcomes = false := by
  rw [Verdict.breaks, merges.merging_eq same]

/-- The verdict on answers of one form is what they come to, if there are any. -/
theorem ofOutcomes_eq (merges : request.MergesAs window form join)
    (same : Verdict.answers outcomes = entries.map form) {sum : Entry}
    (merged : Merge.running join entries = some sum) :
    Verdict.ofOutcomes (request.merge window) request.empty outcomes = .ok (form sum) := by
  rw [Verdict.ofOutcomes, merges.merging_eq same, merged]
  rfl

end MergesAs

/-- That a request is for results, which are merged by their shapes. -/
def MergesResults (request : Request QueryResult) : Prop :=
  request.merge = mergeResults

theorem MergesResults.mergesAs {request : Request QueryResult} (results : request.MergesResults)
    (shape : Shape) (window : Duration) :
    request.MergesAs window shape.form (shape.join (Merge.windowMillis window)) where
  injective := shape.form_injective
  merge_eq := fun first second => by
    rw [results, mergeResults, shape.results_form]

/-- Requests merge results one after the other as results are merged; only a mismatch is told in other
words. -/
theorem foldlM_mergeResults (window : Duration) (first : QueryResult) (rest : List QueryResult) :
    rest.foldlM (mergeResults window) first =
      (rest.foldlM (Merge.results window) first).mapError fun mismatch =>
        .shapeMismatch mismatch.left mismatch.right := by
  induction rest generalizing first with
  | nil => rfl
  | cons next rest inductionHypothesis =>
      rw [List.foldlM_cons, List.foldlM_cons, mergeResults]
      cases Merge.results window first next with
      | error mismatch => rfl
      | ok both => exact inductionHypothesis both

theorem query_mergesResults (text : String) : (query text).MergesResults := rfl

theorem queryRange_mergesResults (text : String) (range : QueryRange) :
    (queryRange text range).MergesResults := rfl

theorem labelValues_mergesAs (label : String) (window : Duration) :
    (labelValues label).MergesAs window id Merge.labelValues :=
  ⟨Function.injective_id, fun _ _ => rfl⟩

theorem series_mergesAs (metrics : List String) (window : Duration) :
    (series metrics).MergesAs window id Merge.labelSets :=
  ⟨Function.injective_id, fun _ _ => rfl⟩

end Request
end QueryFederation
