/-!
# The four read operations

Every backend answers four read operations.  Each has a name, under which calls are counted, and
every answered call has one of two outcomes.
-/

namespace QueryFederation

/-- The kinds of read operation, in the order in which they are listed. -/
inductive ApiKind where
  | labelValues
  | query
  | queryRange
  | series
  deriving DecidableEq, Repr

namespace ApiKind

/-- All kinds. -/
def all : List ApiKind :=
  [labelValues, query, queryRange, series]

/-- The name of a kind. -/
def name : ApiKind -> String
  | labelValues => "label_values"
  | query => "query"
  | queryRange => "query_range"
  | series => "series"

/-- The kind with a given name. -/
def ofName? (text : String) : Option ApiKind :=
  all.find? (fun kind => kind.name == text)

end ApiKind

/-- The outcome of one call of one backend. -/
inductive CallStatus where
  | success
  | error
  deriving DecidableEq, Repr

namespace CallStatus

/-- Both outcomes. -/
def all : List CallStatus :=
  [success, error]

/-- The name of an outcome. -/
def name : CallStatus -> String
  | success => "success"
  | error => "error"

/-- The outcome with a given name. -/
def ofName? (text : String) : Option CallStatus :=
  all.find? (fun status => status.name == text)

/-- Success for a value, error for a fault. -/
def ofOutcome {Fault Answer : Type} : Except Fault Answer -> CallStatus
  | .ok _ => success
  | .error _ => error

end CallStatus
end QueryFederation
