import QueryFederation.Toml.Basic

/-!
# Building tables

A document builds its tables piece by piece.  A header opens a table, or adds an element to a list of
tables, and the assignments that follow belong to it; a dotted name in an assignment reaches into a
table within.  While a document is read, each table remembers how it came into being, because that
decides what may still be added to it:

- a table opened by its header takes assignments only under that header;
- a table implied by the header of a table within may still be opened, once;
- a table made by a dotted name may be reached by dotted names, but never be opened.

A value, tables between braces included, is finished as soon as it is read.
-/

namespace QueryFederation
namespace Toml

/-- How a table came into being. -/
inductive Origin where
  | opened
  | implied
  | dotted
  deriving DecidableEq, Repr

/-- What stands under a name while a document is read. -/
inductive Draft where
  | value (value : Toml)
  | table (origin : Origin) (entries : List (String × Draft))
  /-- A list of tables; only the last one is still open. -/
  | tables (finished : List (List (String × Draft))) (last : List (String × Draft))

namespace Draft

/-- Put a draft under a name; an earlier one of the same name is replaced where it stands. -/
def put (name : String) (draft : Draft) : List (String × Draft) -> List (String × Draft)
  | [] => [(name, draft)]
  | (other, kept) :: rest =>
      if other = name then (name, draft) :: rest else (other, kept) :: put name draft rest

/-- Assign a value to a name that is reached by a path of names, from a table of some origin on.
`within` says whether a part of the path has been followed already. -/
def assign? (value : Toml) (name : String) :
    List String -> Bool -> Origin -> List (String × Draft) -> Option (List (String × Draft))
  | [], within, origin, entries =>
      if (origin = .dotted) ↔ within = true then
        match entries.lookup name with
        | none => some (put name (.value value) entries)
        | some _ => none
      else none
  | part :: path, _, _, entries =>
      match entries.lookup part with
      | none =>
          (assign? value name path true .dotted []).map fun inner =>
            put part (.table .dotted inner) entries
      | some (.table origin inner) =>
          if origin = .opened then none
          else
            (assign? value name path true origin inner).map fun inner =>
              put part (.table origin inner) entries
      | some (.tables finished last) =>
          (assign? value name path true .opened last).map fun last =>
            put part (.tables finished last) entries
      | some (.value _) => none

/-- An assignment: the path to a name, the name, and its value. -/
structure Assignment where
  path : List String
  name : String
  value : Toml

/-- Carry out assignments in a table that is open for them. -/
def assignAll? (assignments : List Assignment) (entries : List (String × Draft)) :
    Option (List (String × Draft)) :=
  assignments.foldlM
    (fun entries assignment =>
      assign? assignment.value assignment.name assignment.path false .opened entries)
    entries

/-- Change what stands at the end of a path of names, given what stood there. -/
def atPath? (name : String) (change : Option Draft -> Option Draft) :
    List String -> List (String × Draft) -> Option (List (String × Draft))
  | [], entries => (change (entries.lookup name)).map fun draft => put name draft entries
  | part :: path, entries =>
      match entries.lookup part with
      | none =>
          (atPath? name change path []).map fun inner => put part (.table .implied inner) entries
      | some (.table origin inner) =>
          (atPath? name change path inner).map fun inner => put part (.table origin inner) entries
      | some (.tables finished last) =>
          (atPath? name change path last).map fun last => put part (.tables finished last) entries
      | some (.value _) => none

/-- Open a table, which must be new or only implied so far, and fill it. -/
def openTable? (assignments : List Assignment) : Option Draft -> Option Draft
  | none => (assignAll? assignments []).map (.table .opened)
  | some (.table .implied entries) => (assignAll? assignments entries).map (.table .opened)
  | some _ => none

/-- Add an element to a list of tables, which may be new, and fill it. -/
def addTable? (assignments : List Assignment) : Option Draft -> Option Draft
  | none => (assignAll? assignments []).map (.tables [])
  | some (.tables finished last) =>
      (assignAll? assignments []).map (.tables (finished ++ [last]))
  | some _ => none

mutual

/-- The finished value of a draft. -/
def finish : Draft -> Toml
  | .value finished => finished
  | .table _ entries => .table (finishEntries entries)
  | .tables finished last => .array (finishTables finished ++ [.table (finishEntries last)])

/-- The finished values of entries. -/
def finishEntries : List (String × Draft) -> List (String × Toml)
  | [] => []
  | (name, draft) :: rest => (name, finish draft) :: finishEntries rest

/-- The finished values of tables. -/
def finishTables : List (List (String × Draft)) -> List Toml
  | [] => []
  | entries :: rest => .table (finishEntries entries) :: finishTables rest

end

end Draft

/-- A part of a document: a header and the assignments under it. -/
structure Section where
  /-- Whether the header adds to a list of tables. -/
  isElement : Bool
  path : List String
  name : String
  assignments : List Draft.Assignment

/-- Add a part of a document to what came before it. -/
def Section.addTo? (part : Section) (entries : List (String × Draft)) :
    Option (List (String × Draft)) :=
  Draft.atPath? part.name
    (if part.isElement then Draft.addTable? part.assignments
      else Draft.openTable? part.assignments)
    part.path entries

/-- The table between braces that assignments make. -/
def inlineTable? (assignments : List Draft.Assignment) : Option Toml :=
  (Draft.assignAll? assignments []).map fun entries => .table (Draft.finishEntries entries)

/-- The document made of the assignments before any header and of the parts after. -/
def document? (assignments : List Draft.Assignment) (parts : List Section) : Option Toml := do
  let entries <- Draft.assignAll? assignments []
  let entries <- parts.foldlM (fun entries part => part.addTo? entries) entries
  some (.table (Draft.finishEntries entries))

end Toml
end QueryFederation
