import QueryFederation.Federation.Request

/-!
# Backends

A backend is one of four things: a mock with prepared answers, a snapshot of another backend, a
client that breaks down on every call, or a federation, which is a backend made of backends.
Federations may contain federations to any depth.

A federation may have a hook.  The hook is told the outcome of every call of every member.
-/

namespace QueryFederation

/-- What a federation knows beside its members. -/
structure FederationSettings where
  /-- Samples of one series that lie no further apart than this count as one. -/
  window : Duration
  /-- The names of the members, as far as they have one. -/
  names : List String
  /-- Whether the outcomes of the members are reported to a hook. -/
  isObserved : Bool
  deriving DecidableEq, Repr

/-- A backend. -/
inductive Backend where
  | mock (mock : Mock)
  | fixture (name : String) (fixture : Fixture)
  /-- Breaks down on every call, with these words. -/
  | crashing (message : String)
  | federation (settings : FederationSettings) (members : List Backend)

namespace Backend

/-- The place of a backend in a tree: the indices of the members that lead to it, from the root on. -/
abbrev Place :=
  List Nat

mutual

/-- The places of all mocks in a tree, in preorder. -/
def mockPlaces (place : Place) : Backend -> List Place
  | mock _ => [place]
  | fixture _ _ => []
  | crashing _ => []
  | federation _ members => mockPlacesOfMembers place 0 members

/-- The places of all mocks among members from an index on. -/
def mockPlacesOfMembers (place : Place) (index : Nat) : List Backend -> List Place
  | [] => []
  | member :: members =>
      mockPlaces (place ++ [index]) member ++ mockPlacesOfMembers place (index + 1) members

end

mutual

/-- All federations in a tree with their places, settings and members, in preorder. -/
def federations (place : Place) : Backend -> List (Place × FederationSettings × List Backend)
  | mock _ => []
  | fixture _ _ => []
  | crashing _ => []
  | federation settings members =>
      (place, settings, members) :: federationsOfMembers place 0 members

/-- All federations among members from an index on. -/
def federationsOfMembers (place : Place) (index : Nat) :
    List Backend -> List (Place × FederationSettings × List Backend)
  | [] => []
  | member :: members =>
      federations (place ++ [index]) member ++ federationsOfMembers place (index + 1) members

end

end Backend

namespace FederationSettings

/-- A description of a federation with a number of members, for a person who looks for errors. -/
def describe (settings : FederationSettings) (size : Nat) : String :=
  "MultiBackend \x7b backends: " ++ toString size ++
    ", anti_affinity: " ++ settings.window.describe ++
    ", metric_fn: " ++ (if settings.isObserved then "true" else "false") ++ " \x7d"

end FederationSettings
end QueryFederation
