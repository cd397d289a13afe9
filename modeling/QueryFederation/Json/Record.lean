import QueryFederation.Json.Parser
import QueryFederation.Json.Printer

/-!
# Records in JSON documents

A record with known field names may be written as an object or, with the fields in their order, as an
array.  An object names each field at most once; names that the record does not have are skipped,
whatever their values hold.  An array may be too short, which leaves the last fields out, but not too
long.

A record only finds the values of its fields.  Whether a field may be left out, and what its value
must be, is for the reader of the field.
-/

namespace QueryFederation
namespace Json

/-- The values of the members with a name. -/
def valuesOf (name : String) (members : List (String × Json)) : List Json :=
  (members.filter fun member => member.1 == name).map Prod.snd

/-- The value of a field in an object: found, left out, or refused for being there twice. -/
def field? (name : String) (members : List (String × Json)) : Option (Option Json) :=
  match valuesOf name members with
  | [] => some none
  | [value] => some (some value)
  | _ => none

/-- The values of the fields of a record, in the order of the field names. -/
def record? (names : List String) : Json -> Option (List (Option Json))
  | object members => names.mapM fun name => field? name members
  | array items =>
      if items.length ≤ names.length then
        some (items.map some ++ List.replicate (names.length - items.length) none)
      else none
  | _ => none

/-- The values of the fields of a record that has no other members. -/
def closedRecord? (names : List String) (document : Json) : Option (List (Option Json)) :=
  match document with
  | object members =>
      if members.all fun member => names.contains member.1 then record? names document else none
  | _ => record? names document

/-- An integer between two bounds. -/
def intBetween? (least greatest : Int) : Json -> Option Int
  | number written =>
      match written.toInt? with
      | some value => if least ≤ value ∧ value ≤ greatest then some value else none
      | none => none
  | _ => none

/-- A natural number below a bound. -/
def natBelow? (bound : Nat) (document : Json) : Option Nat :=
  (intBetween? 0 ((bound : Int) - 1) document).map Int.toNat

/-- A 64-bit integer. -/
def int64? (document : Json) : Option Int64 :=
  (intBetween? (-(Nat.pow 2 63)) (Nat.pow 2 63 - 1) document).map Int64.ofInt

/-- A double. -/
def float? : Json -> Option Float
  | number written => written.toFloat?
  | _ => none

/-- A text. -/
def text? : Json -> Option String
  | string text => some text
  | _ => none

/-- A list, read item by item. -/
def list? {Entry : Type} (item? : Json -> Option Entry) : Json -> Option (List Entry)
  | array items => items.mapM item?
  | _ => none

/-- The members of an object, each value read in the same way. -/
def table? {Entry : Type} (item? : Json -> Option Entry) : Json -> Option (List (String × Entry))
  | object members => members.mapM fun member => (item? member.2).map fun entry => (member.1, entry)
  | _ => none

/-- One of several names, written alone or as the only member of an object with value null. -/
def name? : Json -> Option String
  | string text => some text
  | object [(name, null)] => some name
  | _ => none

end Json
end QueryFederation
