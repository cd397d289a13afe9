import QueryFederation.Config.Document
import QueryFederation.Files.Access
import QueryFederation.Federation.Backend
import QueryFederation.Json.Parser
import QueryFederation.Series.Document

/-!
# Loading configurations and snapshots

A configuration file is read in the notation that its extension names, before the file itself is
looked at.  Relative fixture paths are then seen from the directory of the file.
-/

namespace QueryFederation

variable {m : Type -> Type} [Monad m]

namespace ConfigFormat

/-- The notation of a configuration file. -/
def ofPath (path : String) : Except Fault ConfigFormat :=
  match Path.extension? path with
  | none => .error (.configParse .noExtension)
  | some extension =>
      match ofExtension? extension with
      | some format => .ok format
      | none => .error (.configParse (.unknownExtension extension))

end ConfigFormat

namespace FederationConfig

/-- The configuration in the text of a file at a path. -/
def ofFile (path : String) (format : ConfigFormat) (text : String) :
    Except Fault FederationConfig :=
  (parse format text).map fun config =>
    match Path.parent? path with
    | some base => config.resolveFixtures base
    | none => config

/-- Load a configuration file. -/
def load (files : FileAccess m) (path : String) : m (Except Fault FederationConfig) :=
  match ConfigFormat.ofPath path with
  | .error fault => pure (.error fault)
  | .ok format => do
      match ← files.read path with
      | .error fault => pure (.error (.file fault))
      | .ok text => pure (ofFile path format text)

end FederationConfig

namespace Fixture

/-- The snapshot in the text of a file at a path. -/
def ofFile (path text : String) : Except Fault Fixture :=
  match (Json.parse? text).bind ofJson? with
  | some fixture => .ok fixture
  | none => .error (.fixtureLoad path .malformed)

/-- Load a snapshot. -/
def load (files : FileAccess m) (path : String) : m (Except Fault Fixture) := do
  match ← files.read path with
  | .error fault => pure (.error (.fixtureLoad path (.unreadable fault)))
  | .ok text => pure (ofFile path text)

end Fixture
end QueryFederation
