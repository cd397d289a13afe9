import Mathlib.Data.List.Basic
import QueryFederation.Toml.Parser

/-!
# Tables that are built from plain entries

An entry is plain if a bare name is assigned to it, without a path.  When plain entries have different
names, nothing stands in the way of any of them, and they come to stand in the table in their order.

A document of plain entries and of one list of tables, each again of plain entries, is built in the same
way: the first header begins the list, and every further one ends the table before it.
-/

namespace QueryFederation
namespace Toml

open Draft (put assign? assignAll? addTable? finish finishEntries finishTables)

/-- The assignments that plain entries are written as. -/
def assignmentsOf (entries : List (String × Toml)) : List Draft.Assignment :=
  entries.map fun entry => ⟨[], entry.1, entry.2⟩

/-- Plain entries in a table that is being read. -/
def draftsOf (entries : List (String × Toml)) : List (String × Draft) :=
  entries.map fun entry => (entry.1, .value entry.2)

theorem draftsOf_names (entries : List (String × Toml)) :
    (draftsOf entries).map Prod.fst = entries.map Prod.fst := by
  rw [draftsOf, List.map_map]
  rfl

/-! ## Names that are not there -/

section Absent

variable {name : String} {entries : List (String × Draft)}

theorem lookup_of_absent (absent : name ∉ entries.map Prod.fst) : entries.lookup name = none := by
  apply List.lookup_eq_none_iff.mpr
  intro entry isEntry
  rw [bne_iff_ne]
  rintro rfl
  exact absent (List.mem_map_of_mem isEntry)

theorem lookup_append_of_absent (absent : name ∉ entries.map Prod.fst)
    (others : List (String × Draft)) : (entries ++ others).lookup name = others.lookup name := by
  rw [List.lookup_append, lookup_of_absent absent, Option.none_or]

theorem put_append_of_absent (absent : name ∉ entries.map Prod.fst) (draft : Draft)
    (others : List (String × Draft)) :
    put name draft (entries ++ others) = entries ++ put name draft others := by
  induction entries with
  | nil => rfl
  | cons entry rest inductionHypothesis =>
      rw [List.map_cons, List.mem_cons, not_or] at absent
      rw [List.cons_append, put, if_neg (Ne.symm absent.1), inductionHypothesis absent.2]
      rfl

theorem put_of_absent (absent : name ∉ entries.map Prod.fst) (draft : Draft) :
    put name draft entries = entries ++ [(name, draft)] := by
  have appended := put_append_of_absent absent draft []
  rwa [List.append_nil] at appended

end Absent

/-! ## One table -/

theorem assign?_of_absent {name : String} {entries : List (String × Draft)}
    (absent : name ∉ entries.map Prod.fst) (value : Toml) :
    assign? value name [] false .opened entries = some (entries ++ [(name, .value value)]) := by
  rw [assign?, if_pos (by decide), lookup_of_absent absent]
  dsimp only
  rw [put_of_absent absent]

/-- Plain entries are added behind those that are there already. -/
theorem assignAll?_assignmentsOf (entries : List (String × Toml)) {before : List (String × Draft)}
    (distinct : (before.map Prod.fst ++ entries.map Prod.fst).Nodup) :
    assignAll? (assignmentsOf entries) before = some (before ++ draftsOf entries) := by
  induction entries generalizing before with
  | nil =>
      rw [draftsOf, List.map_nil, List.append_nil]
      rfl
  | cons entry rest inductionHypothesis =>
      rw [List.map_cons, List.append_cons] at distinct
      have absent : entry.1 ∉ before.map Prod.fst := by
        intro isThere
        have apart := (List.nodup_append.mp (List.nodup_append.mp distinct).1).2.2
        exact apart entry.1 isThere entry.1 List.mem_cons_self rfl
      have distinctLater : ((before ++ [(entry.1, Draft.value entry.2)]).map Prod.fst ++
          rest.map Prod.fst).Nodup := by rwa [List.map_append]
      have later := inductionHypothesis distinctLater
      unfold assignAll? at later ⊢
      rw [assignmentsOf, List.map_cons, List.foldlM_cons, assign?_of_absent absent,
        Option.bind_eq_bind, Option.bind_some]
      rw [assignmentsOf] at later
      rw [later, List.append_assoc]
      rfl

theorem assignAll?_new {entries : List (String × Toml)} (distinct : (entries.map Prod.fst).Nodup) :
    assignAll? (assignmentsOf entries) [] = some (draftsOf entries) :=
  assignAll?_assignmentsOf entries distinct

theorem finishEntries_append (entries others : List (String × Draft)) :
    finishEntries (entries ++ others) = finishEntries entries ++ finishEntries others := by
  induction entries with
  | nil => rfl
  | cons entry rest inductionHypothesis =>
      rw [List.cons_append, finishEntries, finishEntries, inductionHypothesis, List.cons_append]

theorem finishEntries_draftsOf (entries : List (String × Toml)) :
    finishEntries (draftsOf entries) = entries := by
  induction entries with
  | nil => rfl
  | cons entry rest inductionHypothesis =>
      rw [draftsOf, List.map_cons, finishEntries, finish]
      exact congrArg (entry :: ·) inductionHypothesis

/-! ## A list of tables -/

theorem finishTables_append (tables : List (List (String × Draft))) (last : List (String × Draft)) :
    finishTables (tables ++ [last]) = finishTables tables ++ [.table (finishEntries last)] := by
  induction tables with
  | nil => rfl
  | cons entries rest inductionHypothesis =>
      rw [List.cons_append, finishTables, finishTables, inductionHypothesis, List.cons_append]

/-- The part of a document that adds a table of plain entries to the list with a name. -/
def elementOf (name : String) (entries : List (String × Toml)) : Section :=
  ⟨true, [], name, assignmentsOf entries⟩

section Elements

variable {name : String} {base : List (String × Draft)} (absent : name ∉ base.map Prod.fst)
variable {entries : List (String × Toml)} (distinct : (entries.map Prod.fst).Nodup)

include absent distinct

theorem elementOf_addTo?_first :
    (elementOf name entries).addTo? base = some (base ++ [(name, .tables [] (draftsOf entries))]) := by
  change (addTable? (assignmentsOf entries) (base.lookup name)).map (fun draft => put name draft base) = _
  rw [lookup_of_absent absent, addTable?, assignAll?_new distinct, Option.map_some, Option.map_some,
    put_of_absent absent]

theorem elementOf_addTo?_further (finished : List (List (String × Draft))) (last : List (String × Draft)) :
    (elementOf name entries).addTo? (base ++ [(name, .tables finished last)]) =
      some (base ++ [(name, .tables (finished ++ [last]) (draftsOf entries))]) := by
  have found : [(name, Draft.tables finished last)].lookup name = some (.tables finished last) :=
    List.lookup_cons_self
  change (addTable? (assignmentsOf entries)
    ((base ++ [(name, Draft.tables finished last)]).lookup name)).map
    (fun draft => put name draft (base ++ [(name, .tables finished last)])) = _
  rw [lookup_append_of_absent absent, found, addTable?, assignAll?_new distinct, Option.map_some,
    Option.map_some, put_append_of_absent absent, put, if_pos rfl]

end Elements

/-- All further elements come to stand behind the ones before, in their order. -/
theorem exists_foldlM_elements {name : String} {base : List (String × Draft)}
    (absent : name ∉ base.map Prod.fst) (elements : List (List (String × Toml)))
    (distinct : forall entries, entries ∈ elements -> (entries.map Prod.fst).Nodup)
    (finished : List (List (String × Draft))) (last : List (String × Draft)) :
    exists draft,
      (elements.map (elementOf name)).foldlM (fun entries part => part.addTo? entries)
          (base ++ [(name, .tables finished last)]) = some (base ++ [(name, draft)]) ∧
        finish draft =
          .array (finishTables finished ++ .table (finishEntries last) :: elements.map .table) := by
  induction elements generalizing finished last with
  | nil => exact ⟨.tables finished last, rfl, rfl⟩
  | cons entries rest inductionHypothesis =>
      have added := elementOf_addTo?_further absent (distinct entries List.mem_cons_self) finished last
      rcases inductionHypothesis (fun other isOther => distinct other (List.mem_cons_of_mem _ isOther))
        (finished ++ [last]) (draftsOf entries) with ⟨draft, folded, isFinished⟩
      refine ⟨draft, ?_, ?_⟩
      · rw [List.map_cons, List.foldlM_cons, added, Option.bind_eq_bind, Option.bind_some, folded]
      · rw [isFinished, finishTables_append, finishEntries_draftsOf, List.append_assoc,
          List.singleton_append, List.map_cons]

/-- A document of plain entries and of a list of tables of plain entries is the table of these. -/
theorem document?_elements {name : String} {base : List (String × Toml)}
    (distinctBase : (base.map Prod.fst).Nodup) (absent : name ∉ base.map Prod.fst)
    {elements : List (List (String × Toml))} (nonempty : elements ≠ [])
    (distinct : forall entries, entries ∈ elements -> (entries.map Prod.fst).Nodup) :
    document? (assignmentsOf base) (elements.map (elementOf name)) =
      some (.table (base ++ [(name, .array (elements.map .table))])) := by
  rw [← draftsOf_names] at absent
  cases elements with
  | nil => exact absurd rfl nonempty
  | cons entries rest =>
      have added := elementOf_addTo?_first absent (distinct entries List.mem_cons_self)
      rcases exists_foldlM_elements absent rest
        (fun other isOther => distinct other (List.mem_cons_of_mem _ isOther)) [] (draftsOf entries)
        with ⟨draft, folded, isFinished⟩
      have lists : (((entries :: rest).map (elementOf name)).foldlM
          (fun entries (part : Section) => part.addTo? entries) (draftsOf base)) =
            some (draftsOf base ++ [(name, draft)]) := by
        rw [List.map_cons, List.foldlM_cons, added, Option.bind_eq_bind, Option.bind_some, folded]
      rw [document?, assignAll?_new distinctBase]
      dsimp only [Option.bind_eq_bind, Option.bind_some]
      rw [lists, Option.bind_some, finishEntries_append, finishEntries_draftsOf, finishEntries,
        isFinished, finishEntries_draftsOf]
      rfl

/-! ## The lines of such a document -/

/-- The lines that plain entries are written as. -/
def linesOf (entries : List (String × Toml)) : List Line :=
  (assignmentsOf entries).map .assignment

/-- The lines that a table in a list is written as, after an empty one. -/
def elementLinesOf (name : String) (entries : List (String × Toml)) : List Line :=
  .blank :: .header true [] name :: linesOf entries

theorem group_linesOf_append (entries : List (String × Toml)) (lines : List Line) :
    group (linesOf entries ++ lines) =
      (assignmentsOf entries ++ (group lines).1, (group lines).2) := by
  induction entries with
  | nil => rfl
  | cons entry rest inductionHypothesis =>
      change group (.assignment _ :: (linesOf rest ++ lines)) = _
      rw [group, inductionHypothesis]
      rfl

theorem group_elementLinesOf (name : String) (elements : List (List (String × Toml))) :
    group (elements.flatMap (elementLinesOf name)) = ([], elements.map (elementOf name)) := by
  induction elements with
  | nil => rfl
  | cons entries rest inductionHypothesis =>
      rw [List.flatMap_cons, elementLinesOf, List.cons_append, List.cons_append, group, group,
        group_linesOf_append, inductionHypothesis, List.append_nil]
      rfl

theorem group_linesOf_elementLinesOf (base : List (String × Toml)) (name : String)
    (elements : List (List (String × Toml))) :
    group (linesOf base ++ elements.flatMap (elementLinesOf name)) =
      (assignmentsOf base, elements.map (elementOf name)) := by
  rw [group_linesOf_append, group_elementLinesOf, List.append_nil]

end Toml
end QueryFederation
