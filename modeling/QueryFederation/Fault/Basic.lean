import QueryFederation.Files.Fault
import QueryFederation.Series.Result
import QueryFederation.Text.Digits
import QueryFederation.Text.Quoted

/-!
# What can go wrong

All faults of the library have one type.  A constructor names a cause and holds what the wording
needs; the wording itself is in the functions `message` and `chain` alone.

A fault may have been caused by another one.  `chain` lists the wordings of a fault, of its cause, of
the cause's cause, and so on.  The wording of a total failure already contains that of its cause.
-/

namespace QueryFederation

/-- What a failing backend has to say. -/
inductive BackendComplaint where
  /-- In its own words. -/
  | stated (message : String)
  /-- In its own words, under its name. -/
  | named (backend message : String)
  /-- Nothing: the task that asked it broke down. -/
  | brokeDown (index : Nat) (message : String)
  /-- Nothing: the task that asked it ended without a report. -/
  | fellSilent (index : Nat)
  deriving DecidableEq, Repr

namespace BackendComplaint

/-- The wording of a complaint. -/
def message : BackendComplaint -> String
  | stated message => message
  | named backend message => backend ++ ": " ++ message
  | brokeDown index message =>
      "backend " ++ toString index ++ " task failed: task # panicked with message " ++
        Quoted.write message
  | fellSilent index => "backend " ++ toString index ++ " terminated before reporting"

end BackendComplaint

/-- The notations of a configuration document. -/
inductive ConfigFormat where
  | toml
  | json
  deriving DecidableEq, Repr

namespace ConfigFormat

/-- The name of a notation. -/
def name : ConfigFormat -> String
  | toml => "TOML"
  | json => "JSON"

/-- The notation that a file name extension stands for, whatever its case.  No letter outside ASCII
has one of these letters as its small form. -/
def ofExtension? (extension : String) : Option ConfigFormat :=
  let folded := extension.map Char.toLower
  if folded = "toml" then some toml
  else if folded = "json" then some json
  else none

end ConfigFormat

/-- Why a configuration document cannot be read. -/
inductive ConfigComplaint where
  | noExtension
  | unknownExtension (extension : String)
  /-- The document breaks the grammar, or does not describe a configuration. -/
  | malformed (format : ConfigFormat)
  | stated (message : String)
  deriving DecidableEq, Repr

namespace ConfigComplaint

/-- What is said of a malformed document. -/
def malformedDetail : String :=
  "not a configuration document"

/-- The wording of a complaint. -/
def message : ConfigComplaint -> String
  | noExtension => "cannot determine file format from extension"
  | unknownExtension extension => "unsupported config format: ." ++ extension
  | malformed format => format.name ++ " parse error: " ++ malformedDetail
  | stated message => message

end ConfigComplaint

/-- A field of a backend entry that may not be empty. -/
inductive RequiredField where
  | fixture
  | name
  deriving DecidableEq, Repr

namespace RequiredField

/-- The name of the field and the wording of its rule. -/
def rule : RequiredField -> String × String
  | fixture => ("fixture", "fixture path cannot be empty")
  | name => ("name", "backend name cannot be empty")

end RequiredField

/-- A field rule that a configuration breaks. -/
inductive BrokenField where
  | noBackends
  | emptyField (index : Nat) (field : RequiredField)
  deriving DecidableEq, Repr

namespace BrokenField

/-- The wording of a broken rule. -/
def message : BrokenField -> String
  | noBackends => "backends: at least one backend is required"
  | emptyField index field =>
      "backends[" ++ toString index ++ "]." ++ field.rule.1 ++ ": " ++ field.rule.2

end BrokenField

/-- What a configuration violates. -/
inductive ConfigViolation where
  /-- Rules about single fields; all that are broken. -/
  | fields (broken : List BrokenField)
  /-- The backend at an index has the name of an earlier one. -/
  | duplicateName (index : Nat) (name : String)
  | stated (field message : String)
  deriving DecidableEq, Repr

namespace ConfigViolation

/-- The place of a violation. -/
def field : ConfigViolation -> String
  | fields _ => "config"
  | duplicateName index _ => "backends[" ++ toString index ++ "].name"
  | stated field _ => field

/-- The wording of a violation.  Several broken rules follow each other without separation. -/
def message : ConfigViolation -> String
  | fields broken => String.join (broken.map BrokenField.message)
  | duplicateName _ name => "duplicate backend name '" ++ name ++ "'"
  | stated _ message => message

end ConfigViolation

/-- Why a fixture cannot be loaded. -/
inductive FixtureComplaint where
  | unreadable (fault : FileFault)
  /-- The document breaks the grammar, or does not describe a fixture. -/
  | malformed
  | stated (message : String)
  deriving DecidableEq, Repr

namespace FixtureComplaint

/-- The wording of a complaint. -/
def message : FixtureComplaint -> String
  | unreadable fault => fault.message
  | malformed => "not a fixture document"
  | stated message => message

end FixtureComplaint

/-- The faults of the library. -/
inductive Fault where
  /-- The caller has cancelled the call. -/
  | cancelled
  /-- No backend answered; the fault of the last one. -/
  | allBackendsFailed (last : Fault)
  | backend (complaint : BackendComplaint)
  | backendBecause (complaint : BackendComplaint) (cause : Fault)
  | fixtureLoad (path : String) (complaint : FixtureComplaint)
  | shapeMismatch (left right : Shape)
  | configParse (complaint : ConfigComplaint)
  | configParseBecause (complaint : ConfigComplaint) (cause : Fault)
  | configValidation (violation : ConfigViolation)
  | file (fault : FileFault)
  | other (message : String)
  deriving DecidableEq, Repr

namespace Fault

/-- The wording of a fault. -/
def message : Fault -> String
  | cancelled => "request cancelled"
  | allBackendsFailed last => "unable to fetch from downstream servers: " ++ last.message
  | backend complaint => "backend error: " ++ complaint.message
  | backendBecause complaint _ => "backend error: " ++ complaint.message
  | fixtureLoad path complaint =>
      "failed to load fixture '" ++ path ++ "': " ++ complaint.message
  | shapeMismatch left right =>
      "cannot merge " ++ left.name ++ " result with " ++ right.name ++ " result"
  | configParse complaint => "config parse error: " ++ complaint.message
  | configParseBecause complaint _ => "config parse error: " ++ complaint.message
  | configValidation violation =>
      "config validation error at '" ++ violation.field ++ "': " ++ violation.message
  | file fault => "io error: " ++ fault.message
  | other message => message

/-- The wordings of a fault and of its causes, from the fault itself on. -/
def chain : Fault -> List String
  | allBackendsFailed last => (allBackendsFailed last).message :: last.chain
  | backendBecause complaint cause => (backendBecause complaint cause).message :: cause.chain
  | configParseBecause complaint cause =>
      (configParseBecause complaint cause).message :: cause.chain
  | configParse (.malformed format) =>
      [(configParse (.malformed format)).message, ConfigComplaint.malformedDetail]
  | file fault => [(file fault).message, fault.message]
  | fault => [fault.message]

/-- Whether a fault has a cause of its own. -/
def hasCause (fault : Fault) : Bool :=
  decide (1 < fault.chain.length)

/-- Whether a fault is the caller's cancellation itself. -/
def isCancelled (fault : Fault) : Bool :=
  decide (fault = cancelled)

end Fault
end QueryFederation
