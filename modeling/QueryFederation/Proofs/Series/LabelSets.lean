import QueryFederation.Proofs.Series.NameMaps
import QueryFederation.Proofs.Text.ByteOrder
import QueryFederation.Series.Label

/-!
# Label sets are canonical

A label set may be built from pairs in any order, and pairs may repeat a name.  What comes out depends
on nothing but the value that stands last for each name: the set holds one pair for each name that
occurs, with that value, and it holds them in the order of the bytes of the names.  No other label set
says the same.

Series are grouped by the equality of their label sets.  Since every label set is canonical, it is the
equality of the mappings from names to values.
-/

namespace QueryFederation

variable {Value : Type}

/-- Whether a value is the last one that a name has among pairs. -/
def StandsLast (pairs : List (String × Value)) (name : String) (value : Value) : Prop :=
  exists before after, pairs = before ++ (name, value) :: after ∧
    forall pair, pair ∈ after -> pair.1 ≠ name

theorem lookup_reverse_eq_some_iff (pairs : List (String × Value)) (name : String) (value : Value) :
    pairs.reverse.lookup name = some value <-> StandsLast pairs name value := by
  rw [List.lookup_eq_some_iff]
  constructor
  · rintro ⟨after, before, division, others⟩
    refine ⟨before.reverse, after.reverse, ?_, ?_⟩
    · rw [List.reverse_eq_iff] at division
      rw [division, List.reverse_append, List.reverse_cons, List.append_assoc, List.singleton_append]
    · intro pair isAfter same
      have other := others pair (List.mem_reverse.mp isAfter)
      exact bne_iff_ne.mp other same.symm
  · rintro ⟨before, after, rfl, others⟩
    refine ⟨after.reverse, before.reverse, ?_, ?_⟩
    · rw [List.reverse_append, List.reverse_cons, List.append_assoc, List.singleton_append]
    · intro pair isAfter
      rw [bne_iff_ne]
      exact (others pair (List.mem_reverse.mp isAfter)).symm

/-- A name that occurs at all has a last value. -/
theorem exists_standsLast_iff (pairs : List (String × Value)) (name : String) :
    (exists value, StandsLast pairs name value) <-> name ∈ pairs.map Prod.fst := by
  have isFound : (exists value, StandsLast pairs name value) <->
      (pairs.reverse.lookup name).isSome = true := by
    rw [Option.isSome_iff_exists]
    exact exists_congr fun value => (lookup_reverse_eq_some_iff pairs name value).symm
  rw [isFound, List.lookup_isSome_iff, List.mem_map]
  simp only [List.mem_reverse, beq_iff_eq, @eq_comm _ name]

namespace NameMap

theorem get?_ofPairs_eq_some_iff (pairs : List (String × Value)) (name : String) (value : Value) :
    (ofPairs pairs).get? name = some value <-> StandsLast pairs name value := by
  rw [get?_ofPairs, lookup_reverse_eq_some_iff]

/-- Maps are equal exactly if they are the same mapping. -/
theorem eq_iff_get? (first second : NameMap Value) :
    first = second <-> forall name, first.get? name = second.get? name := by
  constructor
  · rintro rfl name
    rfl
  · exact ext_get?

theorem ofPairs_eq_ofPairs_iff (first second : List (String × Value)) :
    ofPairs first = ofPairs second <->
      forall name value, StandsLast first name value <-> StandsLast second name value := by
  rw [eq_iff_get?]
  apply forall_congr'
  intro name
  rw [Option.ext_iff]
  simp only [get?_ofPairs_eq_some_iff]

theorem ascending_bytes (map : NameMap Value) :
    map.pairs.Pairwise fun first second => bytesOf first.1 < bytesOf second.1 := by
  refine map.ascending.imp ?_
  intro first second less
  exact (bytesOf_lt_iff first.1 second.1).mpr less

end NameMap

namespace LabelSet

/-- Whether a label set records pairs: it has one pair for each of their names, with the last value of
the name, in the order of the bytes of the names. -/
structure Records (labels : LabelSet) (pairs : List (String × String)) : Prop where
  ascending : labels.pairs.Pairwise fun first second => bytesOf first.1 < bytesOf second.1
  maps : forall name value, labels.get? name = some value <-> StandsLast pairs name value
  holds : forall name value, (name, value) ∈ labels.pairs <-> StandsLast pairs name value
  names : forall name, name ∈ labels.pairs.map Prod.fst <-> name ∈ pairs.map Prod.fst

theorem records_ofPairs (pairs : List (String × String)) : Records (NameMap.ofPairs pairs) pairs := by
  have maps := NameMap.get?_ofPairs_eq_some_iff pairs
  have holds (name value : String) :
      (name, value) ∈ (NameMap.ofPairs pairs).pairs <-> StandsLast pairs name value := by
    rw [NameMap.mem_pairs_iff, maps]
  refine ⟨NameMap.ascending_bytes _, maps, holds, ?_⟩
  intro name
  rw [← exists_standsLast_iff pairs name]
  simp only [List.mem_map, Prod.exists, holds, exists_and_right, exists_eq_right]

theorem Records.eq_ofPairs {labels : LabelSet} {pairs : List (String × String)}
    (records : Records labels pairs) : labels = NameMap.ofPairs pairs := by
  apply NameMap.ext_get?
  intro name
  apply Option.ext
  intro value
  rw [records.maps, (records_ofPairs pairs).maps]

/-- A label set built from pairs is the only one that records them.  Pairs build equal label sets
exactly if each name has the same last value among them, and any two label sets are equal exactly if
they give the same values to the same names. -/
theorem built_canonically (first second : List (String × String)) :
    (forall labels : LabelSet, Records labels first <-> labels = NameMap.ofPairs first) ∧
    ((NameMap.ofPairs first : LabelSet) = NameMap.ofPairs second <->
      forall name value, StandsLast first name value <-> StandsLast second name value) ∧
    forall labels others : LabelSet,
      labels = others <-> forall name, labels.get? name = others.get? name := by
  refine ⟨?_, NameMap.ofPairs_eq_ofPairs_iff first second, NameMap.eq_iff_get?⟩
  intro labels
  constructor
  · exact Records.eq_ofPairs
  · rintro rfl
    exact records_ofPairs first

end LabelSet
end QueryFederation
