/-!
# Finite maps from names

Label sets and the tables of a fixture are finite maps whose keys are names.  Such a map is kept as a
list of pairs in strictly ascending order of the names, and the order is part of the type.  Two maps
are therefore equal exactly when they give the same names the same values, however they were built.

Names are compared character by character, which is also the order of their bytes in UTF-8.
-/

namespace QueryFederation

/-- The order of the pairs of a map. -/
def Ascending {Value : Type} (pairs : List (String × Value)) : Prop :=
  pairs.Pairwise (fun first second => first.1 < second.1)

instance {Value : Type} (pairs : List (String × Value)) : Decidable (Ascending pairs) :=
  inferInstanceAs (Decidable (pairs.Pairwise _))

/-- A finite map from names to values. -/
@[ext]
structure NameMap (Value : Type) where
  pairs : List (String × Value)
  ascending : Ascending pairs
  deriving DecidableEq

namespace NameMap

variable {Value : Type}

/-- Put a pair into an ascending list of pairs; a pair of the same name is replaced. -/
def insertPair (name : String) (value : Value) : List (String × Value) -> List (String × Value)
  | [] => [(name, value)]
  | (other, kept) :: rest =>
      if name < other then (name, value) :: (other, kept) :: rest
      else if name = other then (name, value) :: rest
      else (other, kept) :: insertPair name value rest

/-- The names that insertion can bring in: the new one, and those that were there. -/
theorem fst_of_mem_insertPair {name : String} {value : Value} {pairs : List (String × Value)}
    {pair : String × Value} (member : pair ∈ insertPair name value pairs) :
    pair.1 = name ∨ exists old, old ∈ pairs ∧ pair.1 = old.1 := by
  induction pairs with
  | nil => exact Or.inl (congrArg Prod.fst (List.mem_singleton.mp member))
  | cons first rest inductionHypothesis =>
      rcases first with ⟨other, kept⟩
      rw [insertPair] at member
      by_cases smaller : name < other
      · rw [if_pos smaller] at member
        rcases List.mem_cons.mp member with rfl | later
        · exact Or.inl rfl
        · exact Or.inr ⟨pair, later, rfl⟩
      · rw [if_neg smaller] at member
        by_cases same : name = other
        · rw [if_pos same] at member
          rcases List.mem_cons.mp member with rfl | later
          · exact Or.inl rfl
          · exact Or.inr ⟨pair, List.mem_cons_of_mem _ later, rfl⟩
        · rw [if_neg same] at member
          rcases List.mem_cons.mp member with rfl | later
          · exact Or.inr ⟨(other, kept), List.mem_cons_self, rfl⟩
          · rcases inductionHypothesis later with new | ⟨old, present, sameName⟩
            · exact Or.inl new
            · exact Or.inr ⟨old, List.mem_cons_of_mem _ present, sameName⟩

/-- Insertion keeps a list of pairs ascending. -/
theorem ascending_insertPair (name : String) (value : Value) {pairs : List (String × Value)}
    (ascending : Ascending pairs) : Ascending (insertPair name value pairs) := by
  induction pairs with
  | nil => exact List.pairwise_singleton _ _
  | cons first rest inductionHypothesis =>
      rcases first with ⟨other, kept⟩
      rcases List.pairwise_cons.mp ascending with ⟨above, ascendingRest⟩
      rw [insertPair]
      by_cases smaller : name < other
      · rw [if_pos smaller]
        refine List.pairwise_cons.mpr ⟨?_, ascending⟩
        intro pair member
        rcases List.mem_cons.mp member with rfl | later
        · exact smaller
        · exact String.lt_trans smaller (above pair later)
      · rw [if_neg smaller]
        by_cases same : name = other
        · rw [if_pos same]
          subst same
          exact List.pairwise_cons.mpr ⟨above, ascendingRest⟩
        · rw [if_neg same]
          refine List.pairwise_cons.mpr ⟨?_, inductionHypothesis ascendingRest⟩
          intro pair member
          rcases fst_of_mem_insertPair member with new | ⟨old, present, sameName⟩
          · rw [new]
            exact Std.lt_of_le_of_ne (String.not_lt.mp smaller) (Ne.symm same)
          · rw [sameName]
            exact above old present

/-- The map without names. -/
def empty : NameMap Value :=
  ⟨[], List.Pairwise.nil⟩

instance : Inhabited (NameMap Value) :=
  ⟨empty⟩

/-- The map with the value of one name set or replaced. -/
def insert (map : NameMap Value) (name : String) (value : Value) : NameMap Value :=
  ⟨insertPair name value map.pairs, ascending_insertPair name value map.ascending⟩

/-- The map built from pairs in any order; of several pairs with one name the last counts. -/
def ofPairs (pairs : List (String × Value)) : NameMap Value :=
  pairs.foldl (fun map pair => map.insert pair.1 pair.2) empty

/-- The value of a name. -/
def get? (map : NameMap Value) (name : String) : Option Value :=
  map.pairs.lookup name

end NameMap
end QueryFederation
