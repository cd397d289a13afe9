import Mathlib.Data.List.Infix
import Mathlib.Data.List.TakeWhile
import QueryFederation.Files.Path

/-!
# The directory of a file, and paths seen from it

A path is a text, but it stands for a way: the names between its slashes, one after another, from the root or
from wherever one is.  Empty names and single points are no steps of the way.  The directory of a file is a
piece of its path that leaves out exactly the last step, and a relative path that is seen from a directory goes
on where the directory ends.  A way that begins at the root is not changed by seeing it from somewhere else, so
a path that was seen from an absolute directory once can be seen from any other without difference.

Two points are a step like any other here.  Where such a way leads is not said.
-/

namespace QueryFederation
namespace Path

/-! ## Steps -/

/-- The names that a text goes through. -/
def stepsOf (text : List Char) : List String :=
  ((text.splitOn '/').map String.ofList).filter fun part => part ≠ "" ∧ part ≠ "."

/-- The names that a path goes through. -/
def steps (path : String) : List String :=
  stepsOf path.toList

theorem stepsOf_append_slash (front rest : List Char) :
    stepsOf (front ++ '/' :: rest) = stepsOf front ++ stepsOf rest := by
  rw [stepsOf, List.splitOn_append_cons_self, List.map_append, List.filter_append]
  rfl

theorem stepsOf_of_name {name : List Char} (noSlash : '/' ∉ name)
    (isStep : String.ofList name ≠ "" ∧ String.ofList name ≠ ".") :
    stepsOf name = [String.ofList name] := by
  rw [stepsOf, List.splitOn_eq_singleton noSlash, List.map_singleton, List.filter_singleton,
    decide_eq_true isStep, Bool.cond_true]

theorem steps_join (base relative : String) : steps (join base relative) = steps base ++ steps relative := by
  unfold join
  split
  · rename_i noSlash
    rcases noSlash with rfl | ended
    · rw [String.empty_append]
      rfl
    · rcases List.getLast?_eq_some_iff.mp ended with ⟨front, isFront⟩
      unfold steps
      rw [String.toList_append, isFront, List.append_assoc, List.singleton_append, stepsOf_append_slash,
        stepsOf_append_slash]
      exact congrArg (· ++ stepsOf relative.toList) (List.append_nil _).symm
  · unfold steps
    rw [String.toList_append, String.toList_append, List.append_assoc]
    exact stepsOf_append_slash _ _

/-! ## The directory of a file -/

theorem trimReversed_suffix (path : List Char) : trimReversed path <:+ path := by
  fun_induction trimReversed path with
  | case1 character rest inductionHypothesis => exact inductionHypothesis.trans (List.suffix_cons _ _)
  | case2 rest inductionHypothesis => exact inductionHypothesis.trans (List.suffix_cons _ _)
  | case3 path => exact List.suffix_rfl

theorem trimReversed_getLast? (path : List Char) : (trimReversed path).getLast? = path.getLast? := by
  fun_induction trimReversed path with
  | case1 character rest inductionHypothesis => rw [inductionHypothesis, List.getLast?_cons_cons]
  | case2 rest inductionHypothesis => rw [inductionHypothesis, List.getLast?_cons_cons]
  | case3 path => rfl

/-- What is left out at the end of a path is no step. -/
theorem stepsOf_trimReversed (path : List Char) :
    stepsOf (trimReversed path).reverse = stepsOf path.reverse := by
  have ended (front : List Char) : stepsOf (front ++ ['/']) = stepsOf front := by
    rw [stepsOf_append_slash]
    exact List.append_nil _
  fun_induction trimReversed path with
  | case1 character rest inductionHypothesis =>
      rw [inductionHypothesis, List.reverse_cons, List.reverse_cons, List.reverse_cons, ended]
  | case2 rest inductionHypothesis =>
      rw [inductionHypothesis, List.reverse_cons, ended, List.reverse_cons, List.reverse_cons,
        List.append_assoc, List.singleton_append, stepsOf_append_slash]
      exact (List.append_nil _).symm
  | case3 path => rfl

/-- That a directory is the one of a file: a piece of the path, with all steps but the last, which begins where
the path begins. -/
structure IsDirectoryOf (directory path : String) : Prop where
  parent : parent? path = some directory
  isPrefix : directory.toList <+: path.toList
  steps_eq : exists name, fileName? path = some name ∧ steps path = steps directory ++ [name]
  isAbsolute_eq : isAbsolute directory = isAbsolute path

/-! The last name of a path and what stands before it, both written from the end. -/

section Division

variable (path : String)

theorem last_append_before :
    (splitReversed path).1 ++ (splitReversed path).2 = trimReversed path.toList.reverse :=
  List.takeWhile_append_dropWhile

theorem slash_not_mem_last : '/' ∉ (splitReversed path).1 := by
  intro isMember
  have notSlash := List.mem_takeWhile_imp isMember
  exact absurd notSlash (by decide)

theorem before_begins : (splitReversed path).2 = [] ∨ (splitReversed path).2.head? = some '/' := by
  by_cases isNone : (splitReversed path).2 = []
  · exact Or.inl isNone
  · have stopped : ((splitReversed path).2.head isNone != '/') = false :=
      List.head_dropWhile_not (· != '/') isNone
    exact Or.inr ((List.head?_eq_some_head isNone).trans (congrArg some (bne_eq_false_iff_eq.mp stopped)))

/-- The steps of a path are those of its two parts. -/
theorem steps_eq_append :
    steps path = stepsOf (splitReversed path).2.reverse ++ stepsOf (splitReversed path).1.reverse := by
  have trimmed := stepsOf_trimReversed path.toList.reverse
  rw [List.reverse_reverse, ← last_append_before, List.reverse_append] at trimmed
  rw [steps, ← trimmed]
  cases before : (splitReversed path).2 with
  | nil => rfl
  | cons slash rest =>
      have isSlash : slash = '/' := by simpa [before] using before_begins path
      rw [isSlash, List.reverse_cons, stepsOf_append_slash, List.append_assoc, List.singleton_append,
        stepsOf_append_slash]
      exact congrArg (· ++ _) (List.append_nil _).symm

/-- A path begins where the part before its last name begins. -/
theorem head?_eq_some_slash_iff :
    path.toList.head? = some '/' <-> (splitReversed path).2.getLast? = some '/' := by
  rw [← List.getLast?_reverse, ← trimReversed_getLast?, ← last_append_before]
  cases before : (splitReversed path).2 with
  | nil =>
      rw [List.append_nil]
      refine iff_of_false (fun isSlash => ?_) (by simp)
      exact slash_not_mem_last path (List.mem_of_getLast? isSlash)
  | cons slash rest => rw [List.getLast?_append_of_ne_nil _ (List.cons_ne_nil slash rest)]

end Division

theorem fileName?_eq_some {path name : String} (named : fileName? path = some name) :
    String.ofList (splitReversed path).1.reverse = name ∧ name ≠ "" ∧ name ≠ "." := by
  unfold fileName? at named
  dsimp only at named
  split at named
  · cases named
  · rename_i isName
    rw [not_or, not_or] at isName
    cases named
    exact ⟨rfl, isName.1, isName.2.1⟩

/-- A path that leads to a file by name has a directory. -/
theorem exists_directory {path name : String} (named : fileName? path = some name) :
    exists directory, IsDirectoryOf directory path := by
  rcases fileName?_eq_some named with ⟨isName, isStep⟩
  refine ⟨String.ofList (trimReversed (splitReversed path).2).reverse, ?_⟩
  constructor
  case parent =>
    rw [parent?, named]
    rfl
  case isPrefix =>
    have isSuffix : (splitReversed path).2 <:+ path.toList.reverse :=
      (last_append_before path ▸ List.suffix_append _ _).trans (trimReversed_suffix _)
    rw [String.toList_ofList, ← List.reverse_reverse path.toList, List.reverse_prefix]
    exact (trimReversed_suffix _).trans isSuffix
  case steps_eq =>
    have noSlash : '/' ∉ (splitReversed path).1.reverse := mt List.mem_reverse.mp (slash_not_mem_last path)
    refine ⟨name, named, ?_⟩
    rw [steps_eq_append, stepsOf_of_name noSlash (isName ▸ isStep), isName, steps, String.toList_ofList,
      stepsOf_trimReversed]
  case isAbsolute_eq =>
    have same := head?_eq_some_slash_iff path
    rw [← trimReversed_getLast?, ← List.head?_reverse] at same
    rw [Bool.eq_iff_iff, isAbsolute, isAbsolute, beq_iff_eq, beq_iff_eq, String.toList_ofList, same]

/-! ## Paths seen from a base -/

theorem join_eq_append (base relative : String) :
    exists separator, join base relative = base ++ (separator ++ relative) := by
  unfold join
  split
  · exact ⟨"", by rw [String.empty_append]⟩
  · exact ⟨"/", String.append_assoc⟩

theorem isAbsolute_join {base : String} (absolute : isAbsolute base = true) (relative : String) :
    isAbsolute (join base relative) = true := by
  rcases join_eq_append base relative with ⟨separator, joined⟩
  unfold isAbsolute at absolute ⊢
  rw [beq_iff_eq] at absolute ⊢
  rw [joined, String.toList_append, List.head?_append, absolute, Option.some_or]

theorem resolve_ne_empty (base : String) {path : String} (nonempty : path ≠ "") :
    resolve base path ≠ "" := by
  unfold resolve
  split
  · exact nonempty
  · rcases join_eq_append base path with ⟨separator, joined⟩
    rw [joined]
    intro isEmpty
    exact nonempty (String.append_eq_empty_iff.mp (String.append_eq_empty_iff.mp isEmpty).2).2

/-- What was seen from an absolute base is not changed by seeing it from another one. -/
theorem resolve_resolve {directory : String} (absolute : isAbsolute directory = true) (base path : String) :
    resolve base (resolve directory path) = resolve directory path := by
  have resolved : isAbsolute (resolve directory path) = true := by
    unfold resolve
    split
    · assumption
    · exact isAbsolute_join absolute path
  rw [resolve, if_pos resolved]

end Path
end QueryFederation
