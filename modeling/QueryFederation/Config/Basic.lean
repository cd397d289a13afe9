import QueryFederation.Fault.Basic
import QueryFederation.Files.Path
import QueryFederation.Time.Duration

/-!
# Configurations

A configuration describes a federation over stored snapshots: the anti-affinity window, an optional
time limit for one call, and the backends in their order.  A limit of zero is none.

A configuration has to have a backend, no empty name and no empty fixture path, and no name twice.  The
rules about single fields come first, and all that are broken are reported together.
-/

namespace QueryFederation

/-- The greatest number of milliseconds that a configuration can hold, and one more. -/
def millisBound : Nat :=
  Nat.pow 2 64

/-- One backend of a configuration. -/
@[ext]
structure BackendEntry where
  name : String
  /-- The path of the snapshot. -/
  fixture : String
  deriving DecidableEq, Repr

/-- The description of a federation. -/
@[ext]
structure FederationConfig where
  antiAffinityMillis : Nat
  timeoutMillis : Option Nat
  backends : List BackendEntry
  antiAffinity_lt : antiAffinityMillis < millisBound
  timeout_lt : ∀ millis ∈ timeoutMillis, millis < millisBound
  deriving DecidableEq

namespace FederationConfig

/-- The anti-affinity window of a configuration that does not mention it. -/
def defaultAntiAffinityMillis : Nat :=
  10000

/-- A configuration from its parts, if the numbers are within their bounds. -/
def ofParts? (antiAffinityMillis : Nat) (timeoutMillis : Option Nat)
    (backends : List BackendEntry) : Option FederationConfig :=
  if antiAffinity : antiAffinityMillis < millisBound then
    if timeout : ∀ millis ∈ timeoutMillis, millis < millisBound then
      some ⟨antiAffinityMillis, timeoutMillis, backends, antiAffinity, timeout⟩
    else none
  else none

/-- The anti-affinity window. -/
def antiAffinity (config : FederationConfig) : Duration :=
  .ofMillis config.antiAffinityMillis

/-- The time limit in milliseconds, if there is one. -/
def limitMillis (config : FederationConfig) : Option Nat :=
  config.timeoutMillis.filter (fun millis => 0 < millis)

/-- The time limit, if there is one. -/
def timeout (config : FederationConfig) : Option Duration :=
  config.limitMillis.map .ofMillis

/-- The names of the backends. -/
def names (config : FederationConfig) : List String :=
  config.backends.map BackendEntry.name

/-- The same configuration with every relative fixture path seen from a base directory. -/
def resolveFixtures (config : FederationConfig) (base : String) : FederationConfig :=
  { config with
    backends := config.backends.map fun entry =>
      { entry with fixture := Path.resolve base entry.fixture } }

/-- The field rules that the backends break, from an index on. -/
def brokenFields (index : Nat) : List BackendEntry -> List BrokenField
  | [] => []
  | entry :: entries =>
      (if entry.fixture = "" then [.emptyField index .fixture] else []) ++
        (if entry.name = "" then [.emptyField index .name] else []) ++
        brokenFields (index + 1) entries

/-- The first backend, from an index on, whose name was met before. -/
def firstRepetition? (met : List String) (index : Nat) : List BackendEntry -> Option (Nat × String)
  | [] => none
  | entry :: entries =>
      if entry.name ∈ met then some (index, entry.name)
      else firstRepetition? (entry.name :: met) (index + 1) entries

/-- What a configuration violates, if it is not valid. -/
def violation? (config : FederationConfig) : Option ConfigViolation :=
  if config.backends.isEmpty then some (.fields [.noBackends])
  else
    match brokenFields 0 config.backends with
    | [] => (firstRepetition? [] 0 config.backends).map fun found => .duplicateName found.1 found.2
    | broken => some (.fields broken)

/-- The configuration itself when it is valid. -/
def validate (config : FederationConfig) : Except Fault FederationConfig :=
  match config.violation? with
  | none => .ok config
  | some violation => .error (.configValidation violation)

end FederationConfig
end QueryFederation
