import QueryFederation.Json.Basic

/-!
# TOML documents

The values of a TOML document.  A table keeps its entries in the order in which they came, and no name
stands in it twice.
-/

namespace QueryFederation

/-- A TOML value.  Of a date or a time only the text is kept. -/
inductive Toml where
  | string (text : String)
  | integer (value : Int)
  | float (literal : Decimal.Literal)
  | boolean (value : Bool)
  | moment (text : String)
  | array (items : List Toml)
  | table (entries : List (String × Toml))
  deriving Inhabited

namespace Toml

mutual

/-- The JSON document with the same content.  Floats and dates have no counterpart that a reader of a
configuration could accept, so they can only be skipped. -/
def toJson : Toml -> Json
  | string text => .string text
  | integer value => Json.ofInt value
  | float _ => .skippable
  | boolean value => .boolean value
  | moment _ => .skippable
  | array items => .array (itemsToJson items)
  | table entries => .object (entriesToJson entries)

/-- The JSON documents of items. -/
def itemsToJson : List Toml -> List Json
  | [] => []
  | item :: rest => toJson item :: itemsToJson rest

/-- The JSON members of entries. -/
def entriesToJson : List (String × Toml) -> List (String × Json)
  | [] => []
  | (name, value) :: rest => (name, toJson value) :: entriesToJson rest

end

end Toml
end QueryFederation
