import QueryFederation.Json.Number

/-!
# JSON documents

A document is a tree.  The members of an object stay in the order in which they are written, and a
repeated name stays repeated; what a repetition means is for the reader of the object to say.

A string may be grammatical and yet denote no text, when an escape names half of a surrogate pair.
Such a string, and an object with such a name, can only be skipped; the tree records nothing else
of them.
-/

namespace QueryFederation

/-- A JSON document. -/
inductive Json where
  | null
  | boolean (value : Bool)
  | number (number : JsonNumber)
  | string (text : String)
  | array (items : List Json)
  | object (members : List (String × Json))
  /-- Grammatical, but without a value. -/
  | skippable
  deriving Inhabited

namespace Json

/-- A natural number. -/
def ofNat (value : Nat) : Json :=
  number (JsonNumber.ofNat value)

/-- An integer. -/
def ofInt (value : Int) : Json :=
  number (JsonNumber.ofInt value)

/-- A double; those without a decimal form are written as null. -/
def ofFloat (value : Float) : Json :=
  match JsonNumber.ofFloat? value with
  | some written => number written
  | none => null

mutual

/-- How deeply arrays and objects are nested. -/
def nesting : Json -> Nat
  | array items => nestingOfItems items + 1
  | object members => nestingOfMembers members + 1
  | _ => 0

/-- The deepest nesting among items. -/
def nestingOfItems : List Json -> Nat
  | [] => 0
  | item :: rest => max (nesting item) (nestingOfItems rest)

/-- The deepest nesting among members. -/
def nestingOfMembers : List (String × Json) -> Nat
  | [] => 0
  | (_, value) :: rest => max (nesting value) (nestingOfMembers rest)

end

mutual

/-- Whether every part of a document has a value: no part can only be skipped, and every number is
within the range of doubles. -/
def isSubstantial : Json -> Bool
  | null => true
  | boolean _ => true
  | number written => written.toFloat?.isSome
  | string _ => true
  | array items => areItemsSubstantial items
  | object members => areMembersSubstantial members
  | skippable => false

/-- Whether all items have a value. -/
def areItemsSubstantial : List Json -> Bool
  | [] => true
  | item :: rest => isSubstantial item && areItemsSubstantial rest

/-- Whether all members have a value. -/
def areMembersSubstantial : List (String × Json) -> Bool
  | [] => true
  | (_, value) :: rest => isSubstantial value && areMembersSubstantial rest

end

/-- Put a member into a list that is ordered by name, after the members of the same name. -/
def insertMember (member : String × Json) : List (String × Json) -> List (String × Json)
  | [] => [member]
  | other :: rest =>
      if member.1 < other.1 then member :: other :: rest else other :: insertMember member rest

mutual

/-- The same document with the members of every object in ascending order of their names. -/
def sortMembers : Json -> Json
  | array items => array (sortItems items)
  | object members => object (sortObject members)
  | other => other

/-- Sort the members within all items. -/
def sortItems : List Json -> List Json
  | [] => []
  | item :: rest => sortMembers item :: sortItems rest

/-- Sort the members of one object, and those within. -/
def sortObject : List (String × Json) -> List (String × Json)
  | [] => []
  | (name, value) :: rest => insertMember (name, sortMembers value) (sortObject rest)

end

end Json
end QueryFederation
