import QueryFederation.Config.Basic
import QueryFederation.Json.Record
import QueryFederation.Toml.Parser
import QueryFederation.Toml.Printer

/-!
# Configuration documents

A configuration is written in TOML or in JSON.  One reader serves both notations, since a TOML document
is read as the JSON document of the same content.  There is a writer for each.

The window may be left out, and so may the time limit.  A time limit of null, which only JSON can say,
is none.
-/

namespace QueryFederation

open Json (record? natBelow? text? list?)

namespace BackendEntry

/-- The stored form of a backend. -/
def toJson (entry : BackendEntry) : Json :=
  .object [("name", .string entry.name), ("fixture", .string entry.fixture)]

/-- Read a backend. -/
def ofJson? (document : Json) : Option BackendEntry :=
  match record? ["name", "fixture"] document with
  | some [some name, some fixture] => do
      some ⟨← text? name, ← text? fixture⟩
  | _ => none

/-- The written form of a backend in TOML. -/
def writeToml (entry : BackendEntry) : List Char :=
  "\n[[backends]]\nname = ".toList ++ Toml.writeString entry.name ++
    "\nfixture = ".toList ++ Toml.writeString entry.fixture ++ ['\n']

end BackendEntry

namespace FederationConfig

/-- The stored form of a configuration. -/
def toJson (config : FederationConfig) : Json :=
  .object (("anti_affinity_ms", .ofNat config.antiAffinityMillis) ::
    (match config.timeoutMillis with
      | some millis => [("timeout_ms", .ofNat millis)]
      | none => []) ++
    [("backends", .array (config.backends.map BackendEntry.toJson))])

/-- Read the anti-affinity window. -/
def readAntiAffinity? : Option Json -> Option Nat
  | none => some defaultAntiAffinityMillis
  | some document => natBelow? millisBound document

/-- Read the time limit. -/
def readTimeout? : Option Json -> Option (Option Nat)
  | none => some none
  | some .null => some none
  | some document => (natBelow? millisBound document).map some

/-- Read a configuration. -/
def ofJson? (document : Json) : Option FederationConfig :=
  match record? ["anti_affinity_ms", "timeout_ms", "backends"] document with
  | some [antiAffinity, timeout, some backends] => do
      ofParts? (← readAntiAffinity? antiAffinity) (← readTimeout? timeout)
        (← list? BackendEntry.ofJson? backends)
  | _ => none

/-- The document of a text, in either notation. -/
def document? (format : ConfigFormat) (text : String) : Option Json :=
  match format with
  | .toml => (Toml.parse? text).map Toml.toJson
  | .json => Json.parse? text

/-- Read and validate a configuration. -/
def parse (format : ConfigFormat) (text : String) : Except Fault FederationConfig :=
  match (document? format text).bind ofJson? with
  | some config => config.validate
  | none => .error (.configParse (.malformed format))

/-- The JSON text of a configuration. -/
def writeJson (config : FederationConfig) : String :=
  config.toJson.indented

/-- The TOML text of a configuration. -/
def writeToml (config : FederationConfig) : String :=
  String.ofList ("anti_affinity_ms = ".toList ++ Digits.ofNat config.antiAffinityMillis ++ ['\n'] ++
    (match config.timeoutMillis with
      | some millis => "timeout_ms = ".toList ++ Digits.ofNat millis ++ ['\n']
      | none => []) ++
    config.backends.flatMap BackendEntry.writeToml)

end FederationConfig
end QueryFederation
