import QueryFederation.Config.Basic
import QueryFederation.Json.Printer

/-!
# Reports

What the program prints about configurations and about failures.

A failure is a list of wordings: what was attempted, why that failed, why this happened, and so on.
The first wording stands alone; those after it are listed as causes, numbered when there are several.
-/

namespace QueryFederation
namespace CommandLine

/-! ## Failures -/

/-- A text whose lines after the first one are indented. -/
def indentLines (indent : List Char) : List Char -> List Char
  | [] => []
  | '\n' :: rest => '\n' :: indent ++ indentLines indent rest
  | character :: rest => character :: indentLines indent rest

/-- A number at the right end of five columns. -/
def alignNumber (number : Nat) : List Char :=
  let digits := Nat.toDigits 10 number
  List.replicate (5 - digits.length) ' ' ++ digits

/-- The lines of one cause. -/
def causeLines (number : Option Nat) (wording : String) : List Char :=
  match number with
  | none => List.replicate 4 ' ' ++ indentLines (List.replicate 4 ' ') wording.toList
  | some number =>
      alignNumber number ++ [':', ' '] ++ indentLines (List.replicate 7 ' ') wording.toList

/-- The causes from a number on, each on lines of its own. -/
def numberedCauses (number : Nat) : List String -> List Char
  | [] => []
  | wording :: wordings => '\n' :: causeLines (some number) wording ++ numberedCauses (number + 1) wordings

/-- The report of a failure, without a final newline. -/
def failureReport (chain : List String) : String :=
  match chain with
  | [] => "Error: "
  | wording :: causes =>
      "Error: " ++ wording ++
        match causes with
        | [] => ""
        | [cause] => "\n\nCaused by:\n" ++ String.ofList (causeLines none cause)
        | causes => "\n\nCaused by:" ++ String.ofList (numberedCauses 0 causes)

/-! ## Validation -/

/-- A backend of a configuration, and whether its snapshot is there. -/
structure BackendPresence where
  entry : BackendEntry
  isPresent : Bool
  deriving DecidableEq, Repr

/-- What may be a mistake in a valid configuration. -/
def warnings (config : FederationConfig) (backends : List BackendPresence) : List String :=
  (if config.backends.length = 1 then
    ["Only one backend configured - nothing to federate"] else []) ++
  ((backends.filter fun backend => !backend.isPresent).map fun backend =>
    "Fixture of backend '" ++ backend.entry.name ++ "' not found: " ++ backend.entry.fixture) ++
  (if config.antiAffinityMillis = 0 then
    ["anti_affinity_ms is 0 - only identical timestamps are deduplicated"] else [])

/-- The result of a validation: a valid configuration with its warnings, or what is wrong. -/
inductive Verdict where
  | valid (config : FederationConfig) (warnings : List String)
  | invalid (wording : String)

namespace Verdict

/-- Whether the configuration is valid. -/
def isValid : Verdict -> Bool
  | valid _ _ => true
  | invalid _ => false

/-- The member for a time limit, if there is one. -/
def timeoutMember (config : FederationConfig) : List (String × Json) :=
  match config.timeoutMillis with
  | some millis => [("timeout_ms", .ofNat millis)]
  | none => []

/-- The verdict on the configuration at a path as a document. -/
def toJson (path : String) (verdict : Verdict) : Json :=
  .object ([("valid", .boolean verdict.isValid), ("config_path", .string path)] ++
    match verdict with
    | valid config warnings =>
        (if warnings.isEmpty then [] else [("warnings", .array (warnings.map Json.string))]) ++
          [("summary", .object ([("backend_count", .ofNat config.backends.length),
            ("anti_affinity_ms", .ofNat config.antiAffinityMillis)] ++ timeoutMember config))]
    | invalid wording => [("error", .string wording)])

/-- The verdict on the configuration at a path as a text. -/
def describe (path : String) : Verdict -> String
  | valid config warnings =>
      "✓ Configuration is valid: " ++ path ++ "\n\n  Backends: " ++
        toString config.backends.length ++ "\n  Anti-affinity: " ++
        toString config.antiAffinityMillis ++ "ms\n  Timeout: " ++
        (match config.timeoutMillis with
          | some millis => toString millis ++ "ms"
          | none => "none") ++ "\n" ++
        (if warnings.isEmpty then ""
          else "\n⚠ Warnings:\n" ++ String.join (warnings.map fun warning => "  - " ++ warning ++ "\n"))
  | invalid wording =>
      "✗ Configuration is invalid: " ++ path ++ "\n\n  Error: " ++ wording ++ "\n"

end Verdict

/-! ## Information -/

/-- The members for backends from an index on. -/
def backendsJson (index : Nat) : List BackendPresence -> List Json
  | [] => []
  | backend :: backends =>
      .object [("index", .ofNat index), ("name", .string backend.entry.name),
        ("fixture", .string backend.entry.fixture),
        ("fixture_exists", .boolean backend.isPresent)] :: backendsJson (index + 1) backends

/-- A configuration as a document. -/
def infoJson (config : FederationConfig) (backends : List BackendPresence) : Json :=
  .object ([("anti_affinity_ms", .ofNat config.antiAffinityMillis)] ++
    Verdict.timeoutMember config ++ [("backends", .array (backendsJson 0 backends))])

/-- The lines about backends from an index on. -/
def backendLines (index : Nat) : List BackendPresence -> String
  | [] => ""
  | backend :: backends =>
      "   " ++ (if backends.isEmpty then "└─" else "├─") ++ " [" ++ toString index ++ "] " ++
        backend.entry.name ++ " → " ++ backend.entry.fixture ++
        (if backend.isPresent then "" else " (missing)") ++ "\n" ++
        backendLines (index + 1) backends

/-- A configuration as a text. -/
def infoText (config : FederationConfig) (backends : List BackendPresence) : String :=
  "╔══════════════════════════════════════════════════════════════╗\n" ++
  "║                  promfed Configuration                       ║\n" ++
  "╚══════════════════════════════════════════════════════════════╝\n\n" ++
  "⚙️  Merge Settings\n" ++
  "   ├─ Anti-affinity: " ++ toString config.antiAffinityMillis ++ "ms\n" ++
  "   └─ Timeout: " ++
  (match config.limitMillis with
    | some millis => toString millis ++ "ms"
    | none => "none") ++ "\n" ++
  "\n🗄  Backends (" ++ toString backends.length ++ ")\n" ++ backendLines 0 backends ++ "\n"

end CommandLine
end QueryFederation
