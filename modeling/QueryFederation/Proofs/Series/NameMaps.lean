import Mathlib.Data.List.Induction
import Mathlib.Data.List.Nodup
import QueryFederation.Series.NameMap

/-!
# What a finite map is made of

A map is determined by the values that it gives to names, because its pairs are kept in strict order.
Built from pairs it gives each name the value that stands last, so pairs with different names make the
same map in whatever order they come.
-/

namespace QueryFederation

variable {Value : Type}

theorem lookup_cons_if (other : String) (kept : Value) (rest : List (String × Value))
    (name : String) :
    ((other, kept) :: rest).lookup name = if name = other then some kept else rest.lookup name := by
  rw [List.lookup_cons]
  by_cases same : name = other
  · rw [if_pos same, beq_iff_eq.mpr same]
  · rw [if_neg same, beq_eq_false_iff_ne.mpr same]

/-! ## Pairs with different names -/

/-- Where names are different, a name is found with a value exactly if the two are a pair. -/
theorem lookup_eq_some_iff_mem {pairs : List (String × Value)} (distinct : (pairs.map Prod.fst).Nodup)
    (name : String) (value : Value) : pairs.lookup name = some value <-> (name, value) ∈ pairs := by
  induction pairs with
  | nil =>
      constructor
      · intro found
        cases found
      · intro isPair
        cases isPair
  | cons first rest inductionHypothesis =>
      rcases first with ⟨other, kept⟩
      rw [List.map_cons, List.nodup_cons] at distinct
      rw [lookup_cons_if, List.mem_cons, Prod.mk.injEq]
      by_cases same : name = other
      · have notLater : (name, value) ∉ rest := by
          intro later
          apply distinct.1
          rw [← same]
          exact List.mem_map.mpr ⟨_, later, rfl⟩
        rw [if_pos same, Option.some.injEq, or_iff_left notLater, and_iff_right same, eq_comm]
      · rw [if_neg same, inductionHypothesis distinct.2,
          or_iff_right fun isFirst => same isFirst.1]

/-- Where names are different, what is found does not depend on the order. -/
theorem lookup_perm {first second : List (String × Value)} (distinct : (first.map Prod.fst).Nodup)
    (samePairs : first.Perm second) (name : String) : first.lookup name = second.lookup name := by
  have alsoDistinct : (second.map Prod.fst).Nodup := (samePairs.map Prod.fst).nodup_iff.mp distinct
  apply Option.ext
  intro value
  rw [lookup_eq_some_iff_mem distinct, lookup_eq_some_iff_mem alsoDistinct, samePairs.mem_iff]

theorem Ascending.distinct {pairs : List (String × Value)} (ascending : Ascending pairs) :
    (pairs.map Prod.fst).Nodup := by
  refine List.pairwise_map.mpr (ascending.imp ?_)
  intro first second less same
  rw [same] at less
  exact String.lt_irrefl _ less

/-! ## Insertion -/

theorem lookup_insertPair (name : String) (value : Value) (pairs : List (String × Value))
    (other : String) :
    (NameMap.insertPair name value pairs).lookup other =
      if other = name then some value else pairs.lookup other := by
  induction pairs with
  | nil => exact lookup_cons_if name value [] other
  | cons first rest inductionHypothesis =>
      rcases first with ⟨next, kept⟩
      rw [NameMap.insertPair]
      by_cases smaller : name < next
      · rw [if_pos smaller]
        exact lookup_cons_if name value _ other
      · rw [if_neg smaller]
        by_cases same : name = next
        · subst same
          rw [if_pos rfl, lookup_cons_if, lookup_cons_if]
          by_cases isNew : other = name
          · rw [if_pos isNew, if_pos isNew]
          · rw [if_neg isNew, if_neg isNew, if_neg isNew]
        · rw [if_neg same, lookup_cons_if, lookup_cons_if, inductionHypothesis]
          by_cases isNew : other = name
          · rw [if_neg fun isNext => same (isNew.symm.trans isNext), if_pos isNew, if_pos isNew]
          · rw [if_neg isNew, if_neg isNew]

namespace NameMap

variable {map first second : NameMap Value}

theorem get?_insert (map : NameMap Value) (name : String) (value : Value) (other : String) :
    (map.insert name value).get? other = if other = name then some value else map.get? other :=
  lookup_insertPair name value map.pairs other

theorem mem_pairs_iff (map : NameMap Value) (name : String) (value : Value) :
    (name, value) ∈ map.pairs <-> map.get? name = some value :=
  (lookup_eq_some_iff_mem map.ascending.distinct name value).symm

/-- Maps that give all names the same values are equal. -/
theorem ext_get? (same : forall name, first.get? name = second.get? name) : first = second := by
  apply NameMap.ext
  have samePairs : first.pairs.Perm second.pairs := by
    refine (List.perm_ext_iff_of_nodup first.ascending.distinct.of_map
      second.ascending.distinct.of_map).mpr ?_
    rintro ⟨name, value⟩
    rw [mem_pairs_iff, mem_pairs_iff, same]
  refine samePairs.eq_of_pairwise ?_ first.ascending second.ascending
  intro left right _ _ less greater
  exact absurd greater (String.lt_asymm less)

/-- A map built from pairs gives a name the value that stands last for it. -/
theorem get?_ofPairs (pairs : List (String × Value)) (name : String) :
    (ofPairs pairs).get? name = pairs.reverse.lookup name := by
  induction pairs using List.reverseRecOn with
  | nil => rfl
  | append_singleton earlier last inductionHypothesis =>
      rw [ofPairs, List.foldl_append, List.foldl_cons, List.foldl_nil, get?_insert,
        List.reverse_append, List.reverse_singleton, List.singleton_append, lookup_cons_if]
      rw [ofPairs] at inductionHypothesis
      rw [inductionHypothesis]

/-- The pairs of a map make that map, in whatever order they come. -/
theorem ofPairs_perm {pairs : List (String × Value)} (samePairs : pairs.Perm map.pairs) :
    ofPairs pairs = map := by
  apply ext_get?
  intro name
  rw [get?_ofPairs]
  refine lookup_perm ?_ ((List.reverse_perm pairs).trans samePairs) name
  rw [List.map_reverse, List.nodup_reverse]
  exact (samePairs.map Prod.fst).nodup_iff.mpr map.ascending.distinct

end NameMap
end QueryFederation
