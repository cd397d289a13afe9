import QueryFederation.Series.Label

/-!
# Union of lists

Lists of label values and of label sets are merged into a list without repetition that keeps the
order of first occurrence.  Repetitions within one of the inputs are removed as well.
-/

namespace QueryFederation
namespace Merge

variable {Entry : Type} [DecidableEq Entry]

/-- The entries not met before, in order.  `met` holds those that were. -/
def unmet (met : List Entry) : List Entry -> List Entry
  | [] => []
  | entry :: rest =>
      if entry ∈ met then unmet met rest else entry :: unmet (entry :: met) rest

/-- The entries of a list in order of first occurrence. -/
def distinct (entries : List Entry) : List Entry :=
  unmet [] entries

/-- The union of two lists in order of first occurrence, those of the first list in front. -/
def union (first second : List Entry) : List Entry :=
  distinct (first ++ second)

/-- The union of two lists of label values. -/
def labelValues (first second : List String) : List String :=
  union first second

/-- The union of two lists of label sets. -/
def labelSets (first second : List LabelSet) : List LabelSet :=
  union first second

end Merge
end QueryFederation
