import Mathlib.Data.List.Induction
import QueryFederation.Merge.Results

/-!
# Running merges

Many answers are merged by merging each of them into what the earlier ones have come to, beginning with
the first one as it is.  Where merging is total on the answers in question, the running merge is a plain
fold, and where it is associative besides, the running merge of a long list is the merge of those of its
parts.
-/

namespace QueryFederation
namespace Merge

variable {Entry : Type}

/-- What a list of entries comes to when each is joined to the earlier ones; nothing for no entries. -/
def running (join : Entry -> Entry -> Entry) : List Entry -> Option Entry
  | [] => none
  | first :: rest => some (rest.foldl join first)

/-- Results merged in their order, the first one taken as it is. -/
def fold (window : Duration) : List QueryResult -> Except Mismatch (Option QueryResult)
  | [] => .ok none
  | first :: rest => (rest.foldlM (results window) first).map some

theorem running_concat (join : Entry -> Entry -> Entry) (entries : List Entry) (last : Entry) :
    running join (entries ++ [last]) = Option.merge join (running join entries) (some last) := by
  cases entries with
  | nil => rfl
  | cons first rest => simp [running, List.foldl_append]

theorem running_eq_none_iff {join : Entry -> Entry -> Entry} {entries : List Entry} :
    running join entries = none <-> entries = [] := by
  cases entries <;> simp [running]

/-- What is respected by joining may be applied before the merge or after it. -/
theorem running_map {join : Entry -> Entry -> Entry} {change : Entry -> Entry}
    (respects : forall first second, change (join first second) = join (change first) (change second))
    (entries : List Entry) :
    running join (entries.map change) = (running join entries).map change := by
  cases entries with
  | nil => rfl
  | cons first rest =>
      have folded : (rest.map change).foldl join (change first) = change (rest.foldl join first) := by
        rw [List.foldl_map]
        exact List.foldl_hom change fun sofar next => (respects sofar next).symm
      exact congrArg some folded

theorem running_append {join : Entry -> Entry -> Entry}
    (assoc : forall first second third,
      join (join first second) third = join first (join second third))
    (first second : List Entry) :
    running join (first ++ second) =
      Option.merge join (running join first) (running join second) := by
  induction second using List.reverseRecOn with
  | nil =>
      rw [List.append_nil]
      cases running join first <;> rfl
  | append_singleton second last inductionHypothesis =>
      rw [← List.append_assoc, running_concat, inductionHypothesis, running_concat]
      cases running join first with
      | none => rw [Option.merge_none_left, Option.merge_none_left]
      | some left =>
          cases running join second with
          | none => rfl
          | some right => exact congrArg some (assoc left right last)

/-- Parts may be merged first, each by itself, if none of them is empty. -/
theorem running_flatten {join : Entry -> Entry -> Entry}
    (assoc : forall first second third,
      join (join first second) third = join first (join second third))
    {parts : List (List Entry)} {sums : List Entry}
    (merged : List.Forall₂ (fun part sum => running join part = some sum) parts sums) :
    running join parts.flatten = running join sums := by
  induction merged with
  | nil => rfl
  | @cons part sum parts sums first _ inductionHypothesis =>
      have alone : running join [sum] = some sum := rfl
      rw [List.flatten_cons, running_append assoc, first, inductionHypothesis,
        ← List.singleton_append (l := sums), running_append assoc, alone]

section Closed

variable {join : Entry -> Entry -> Entry} {property : Entry -> Prop}
  (closed : forall {first second : Entry},
    property first -> property second -> property (join first second))
include closed

theorem foldl_of_closed {first : Entry} {rest : List Entry} (ofFirst : property first)
    (ofRest : forall entry, entry ∈ rest -> property entry) : property (rest.foldl join first) :=
  List.foldlRecOn rest join ofFirst fun _ sofar entry isMember => closed sofar (ofRest entry isMember)

/-- An entry that is neutral for what the others can come to may be put anywhere among them. -/
theorem running_insert {neutral : Entry}
    (left : forall {entry : Entry}, property entry -> join neutral entry = entry)
    (right : forall {entry : Entry}, property entry -> join entry neutral = entry)
    {before after : List Entry} (nonempty : before ++ after ≠ [])
    (ofAll : forall entry, entry ∈ before ++ after -> property entry) :
    running join (before ++ neutral :: after) = running join (before ++ after) := by
  cases before with
  | nil =>
      cases after with
      | nil => exact absurd rfl nonempty
      | cons first rest =>
          have same : join neutral first = first := left (ofAll first List.mem_cons_self)
          change some (rest.foldl join (join neutral first)) = some (rest.foldl join first)
          rw [same]
  | cons first rest =>
      have sofar : property (rest.foldl join first) := by
        apply foldl_of_closed closed (ofAll first List.mem_cons_self)
        intro entry isMember
        exact ofAll entry (List.mem_cons_of_mem _ (List.mem_append_left _ isMember))
      change some ((rest ++ neutral :: after).foldl join first) =
        some ((rest ++ after).foldl join first)
      rw [List.foldl_append, List.foldl_cons, right sofar, List.foldl_append]

end Closed

/-- A merge that never fails on entries of one form folds them as they are joined. -/
theorem foldlM_form {Answer Failure : Type} {merge : Answer -> Answer -> Except Failure Answer}
    {form : Entry -> Answer} {join : Entry -> Entry -> Entry}
    (merges : forall first second, merge (form first) (form second) = .ok (form (join first second)))
    (first : Entry) (rest : List Entry) :
    (rest.map form).foldlM merge (form first) = .ok (form (rest.foldl join first)) := by
  induction rest generalizing first with
  | nil => rfl
  | cons next rest inductionHypothesis =>
      rw [List.map_cons, List.foldlM_cons, merges]
      exact inductionHypothesis (join first next)

/-- Results of one form are merged without a mismatch. -/
theorem fold_form {window : Duration} {form : Entry -> QueryResult} {join : Entry -> Entry -> Entry}
    (merges : forall first second,
      results window (form first) (form second) = .ok (form (join first second)))
    (partials : List Entry) :
    fold window (partials.map form) = .ok ((running join partials).map form) := by
  cases partials with
  | nil => rfl
  | cons first rest =>
      rw [List.map_cons, fold, foldlM_form merges]
      rfl

theorem fold_matrix (window : Duration) (partials : List (List SampleStream)) :
    fold window (partials.map .matrix) =
      .ok ((running (matrices (windowMillis window)) partials).map .matrix) :=
  fold_form (fun _ _ => rfl) partials

end Merge
end QueryFederation
