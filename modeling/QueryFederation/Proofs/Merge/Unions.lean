import QueryFederation.Proofs.Merge.Bracketing
import QueryFederation.Proofs.Series.NameMaps

/-!
# The union of many lists

Lists of label values, or of label sets, are united two at a time.  Whichever two come first, all of them
together come to the entries of all the lists, each where it occurs first.  A list may repeat entries
itself: as soon as there are two lists the repetitions are gone.  In another order the lists come to the
same entries in another order.

A single list is not united with anything and stays as it is, so at least two lists are needed.
-/

namespace QueryFederation
namespace Merge

/-- A way to join entries two at a time. -/
inductive Brackets (Entry : Type) where
  | single (entry : Entry)
  | pair (first second : Brackets Entry)

namespace Brackets

variable {Entry : Type}

/-- The entries that are joined, from left to right. -/
def inputs : Brackets Entry -> List Entry
  | single entry => [entry]
  | pair first second => first.inputs ++ second.inputs

/-- What the entries come to. -/
def joined (join : Entry -> Entry -> Entry) : Brackets Entry -> Entry
  | single entry => entry
  | pair first second => join (first.joined join) (second.joined join)

/-- A fold joins each entry to what the earlier ones have come to. -/
theorem exists_of_running {join : Entry -> Entry -> Entry} {entries : List Entry} {sum : Entry}
    (folded : running join entries = some sum) :
    exists brackets : Brackets Entry, brackets.inputs = entries ∧ brackets.joined join = sum := by
  induction entries using List.reverseRecOn generalizing sum with
  | nil => cases folded
  | append_singleton entries last inductionHypothesis =>
      rw [running_concat] at folded
      cases soFar : running join entries with
      | none =>
          rw [soFar] at folded
          rw [running_eq_none_iff.mp soFar]
          exact ⟨single last, rfl, Option.some.inj folded⟩
      | some before =>
          rw [soFar] at folded
          rcases inductionHypothesis soFar with ⟨brackets, rfl, rfl⟩
          exact ⟨pair brackets (single last), rfl, Option.some.inj folded⟩

variable [DecidableEq Entry]

/-- Up to repetitions, lists come to all of them put together. -/
theorem distinct_joined (brackets : Brackets (List Entry)) :
    distinct (brackets.joined union) = distinct brackets.inputs.flatten := by
  induction brackets with
  | single list => rw [joined, inputs, List.flatten_singleton]
  | pair first second firstHypothesis secondHypothesis =>
      rw [joined, distinct_of_nodup (union_nodup _ _), union, ← union_distinct, firstHypothesis,
        secondHypothesis, union_distinct, inputs, List.flatten_append]

/-- With at least two lists there are no repetitions. -/
theorem joined_union (brackets : Brackets (List Entry)) (several : 2 ≤ brackets.inputs.length) :
    brackets.joined union = brackets.inputs.flatten.eraseDups := by
  rw [← distinct_eq_eraseDups, ← distinct_joined]
  cases brackets with
  | single list => exact absurd several (by simp [inputs])
  | pair first second => exact (distinct_of_nodup (union_nodup _ _)).symm

end Brackets

section All

variable {Entry : Type} [DecidableEq Entry] {lists : List (List Entry)}

/-- That lists, each joined to what the earlier ones have come to, come to the first occurrences of all
their entries, and that only the order of these depends on which lists are joined first. -/
structure UnitesAll (join : List Entry -> List Entry -> List Entry) (lists : List (List Entry))
    (all : List Entry) : Prop where
  folded : running join lists = some all
  bracketed : forall brackets : Brackets (List Entry), brackets.inputs = lists ->
    brackets.joined join = all
  eq_eraseDups : all = lists.flatten.eraseDups
  nodup : all.Nodup
  mem_iff : forall entry, entry ∈ all <-> exists list, list ∈ lists ∧ entry ∈ list
  reordered : forall others, others.Perm lists ->
    exists sum, running join others = some sum ∧ sum.Perm all

theorem eraseDups_nodup (entries : List Entry) : entries.eraseDups.Nodup :=
  distinct_eq_eraseDups entries ▸ distinct_nodup entries

theorem running_union (several : 2 ≤ lists.length) :
    running union lists = some lists.flatten.eraseDups := by
  cases folded : running union lists with
  | none =>
      rw [running_eq_none_iff.mp folded, List.length_nil] at several
      exact absurd several (by decide)
  | some sum =>
      rcases Brackets.exists_of_running folded with ⟨brackets, rfl, rfl⟩
      rw [brackets.joined_union several]

theorem unitesAll_union (several : 2 ≤ lists.length) :
    UnitesAll union lists lists.flatten.eraseDups where
  folded := running_union several
  bracketed := by
    rintro brackets rfl
    exact brackets.joined_union several
  eq_eraseDups := rfl
  nodup := eraseDups_nodup lists.flatten
  mem_iff := fun entry => List.mem_eraseDups.trans List.mem_flatten
  reordered := by
    intro others perm
    refine ⟨_, running_union (perm.length_eq ▸ several), ?_⟩
    apply (List.perm_ext_iff_of_nodup (eraseDups_nodup _) (eraseDups_nodup _)).mpr
    intro entry
    rw [List.mem_eraseDups, List.mem_eraseDups, perm.flatten.mem_iff]

/-- An entry is met again exactly if it is the same. -/
theorem union_singletons_iff {first second : Entry} :
    union [first] [second] = [first] <-> second = first := by
  by_cases same : second = first <;> simp [union, distinct, unmet, same]

end All

/-- At least two lists of label values, or of label sets, come to the first occurrences of all their
entries, whichever lists are joined first.  A label set counts as met exactly if one has been met that
gives the same values to the same names. -/
theorem labels_unite_all :
    (forall lists : List (List String), 2 ≤ lists.length ->
        exists all, UnitesAll labelValues lists all) ∧
      (forall lists : List (List LabelSet), 2 ≤ lists.length ->
        exists all, UnitesAll labelSets lists all) ∧
      forall met labels : LabelSet, labelSets [met] [labels] = [met] <->
        forall name, labels.get? name = met.get? name := by
  refine ⟨fun lists several => ⟨_, unitesAll_union several⟩,
    fun lists several => ⟨_, unitesAll_union several⟩, fun met labels => ?_⟩
  rw [labelSets, union_singletons_iff]
  constructor
  · rintro rfl name
    rfl
  · exact NameMap.ext_get?

/-- Lists of label sets that repeat entries within themselves and share entries that were built in another
order. -/
theorem labels_unite_all_repeated :
    let node : LabelSet := (NameMap.empty.insert "job" "node").insert "zone" "a"
    let again : LabelSet := (NameMap.empty.insert "zone" "a").insert "job" "node"
    let bare : LabelSet := NameMap.empty.insert "job" "node"
    let lists : List (List LabelSet) := [[node, node], [bare, again, bare], [.empty, again]]
    2 ≤ lists.length ∧ (exists all, UnitesAll labelSets lists all ∧ all = [node, bare, .empty]) := by
  intro node again bare lists
  have several : 2 ≤ lists.length := by decide
  rcases labels_unite_all.2.1 lists several with ⟨all, unites⟩
  exact ⟨several, all, unites, unites.eq_eraseDups.trans (by decide)⟩

end Merge
end QueryFederation
