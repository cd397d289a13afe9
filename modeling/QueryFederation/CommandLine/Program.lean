import QueryFederation.CommandLine.Invocation
import QueryFederation.CommandLine.Report
import QueryFederation.CommandLine.Variables
import QueryFederation.Config.Loading
import QueryFederation.Federation.Scope
import QueryFederation.Statistics.Observed

/-!
# The program

What the program does with its command line: it reads the settings of the directory, understands the
command, carries it out, and says what to print and with which code to exit.

The surroundings are a parameter: the files and the variables of the environment.  With those of an
operating system this is the program; with a tree of files in memory it is a function.

The messages of the log and the endpoint for metrics belong to the surroundings.  They have no influence
on what is printed.
-/

namespace QueryFederation
namespace CommandLine

variable {m : Type -> Type} [Monad m]

/-- The surroundings of the program. -/
structure World (m : Type -> Type) where
  files : FileAccess m
  variableValue : String -> m (Option String)
  /-- Where a file of settings may be; the first one that is there counts. -/
  settingsPaths : List String

/-- What the program prints and how it exits. -/
structure Outcome where
  exitCode : Nat
  output : String
  errors : String
  deriving DecidableEq, Repr

/-- A step of a command: a result, or the wordings of a failure. -/
abbrev Step (Result : Type) :=
  Except (List String) Result

/-- A failure of a fault, under the wording of what was attempted. -/
def attempt {Result : Type} (wording : String) (result : Except Fault Result) : Step Result :=
  result.mapError fun fault => wording :: fault.chain

namespace Outcome

/-- The program did what it was told. -/
def success (output errors : String) : Outcome :=
  ⟨0, output, errors⟩

/-- The program failed. -/
def failure (chain : List String) : Outcome :=
  ⟨1, "", failureReport chain ++ "\n"⟩

/-- The outcome of a step. -/
def ofStep : Step Outcome -> Outcome
  | .ok outcome => outcome
  | .error chain => failure chain

/-- A short description of the command line. -/
def usageText : String :=
  "Usage: promfed [OPTIONS] <COMMAND>\n\nCommands:\n" ++
    String.join ((CommandName.all.map CommandName.name ++ [helpCommand]).map fun name =>
      "  " ++ name ++ "\n")

/-- The outcome of a command line that is not carried out. -/
def ofRejection : Rejection -> Outcome
  | .usage => ⟨2, "", usageText⟩
  | .help => ⟨0, usageText, ""⟩
  | .version => ⟨0, "promfed 0.1.0\n", ""⟩

end Outcome

/-! ## Configurations -/

/-- The failure of a command whose configuration file is not there. -/
def configNotFound (path : String) : List String :=
  ["Configuration file not found: " ++ path]

/-- Load the configuration of a command. -/
def loadConfig (files : FileAccess m) (path : String) : m (Step FederationConfig) := do
  if ← files.isPresent path then
    pure (attempt ("Failed to load config from " ++ path) (← FederationConfig.load files path))
  else pure (.error (configNotFound path))

/-- Find out which snapshots are there. -/
def findBackends (files : FileAccess m) (config : FederationConfig) : m (List BackendPresence) :=
  config.backends.mapM fun entry => do
    pure ⟨entry, ← files.isPresent entry.fixture⟩

/-- Validate the configuration at a path. -/
def verdictOn (files : FileAccess m) (path : String) : m Verdict := do
  if ← files.isPresent path then
    match ← FederationConfig.load files path with
    | .ok config => do
        let backends <- findBackends files config
        pure (.valid config (warnings config backends))
    | .error fault => pure (.invalid fault.message)
  else pure (.invalid ("File not found: " ++ path))

/-- The command `validate`.  An invalid configuration is a failure as well. -/
def runValidate (files : FileAccess m) (path : String) (asJson : Bool) : m Outcome := do
  let verdict <- verdictOn files path
  let output := if asJson then (verdict.toJson path).indented ++ "\n" else verdict.describe path
  pure (if verdict.isValid then .success output ""
    else { Outcome.failure ["Configuration validation failed"] with output := output })

/-- The command `info`. -/
def runInfo (files : FileAccess m) (path : String) (asJson : Bool) : m Outcome := do
  match ← loadConfig files path with
  | .error chain => pure (.failure chain)
  | .ok config => do
      let backends <- findBackends files config
      pure (.success
        (if asJson then (infoJson config backends).indented ++ "\n" else infoText config backends) "")

/-! ## Calls -/

/-- The settings of a command put over those of the configuration. -/
def override? (options : FederationOptions) (config : FederationConfig) :
    Option FederationConfig :=
  FederationConfig.ofParts? (options.antiAffinityMillis.getD config.antiAffinityMillis)
    (options.timeoutMillis <|> config.timeoutMillis) config.backends

/-- Open the snapshots of backends in their order, up to the first one that cannot be loaded. -/
def openBackends (files : FileAccess m) : List BackendEntry -> m (Step (List Backend))
  | [] => pure (.ok [])
  | entry :: entries => do
      match attempt ("Failed to open backend '" ++ entry.name ++ "'")
        (← Fixture.load files entry.fixture) with
      | .error chain => pure (.error chain)
      | .ok fixture => do
          let rest <- openBackends files entries
          pure (rest.map fun backends => .fixture entry.name fixture :: backends)

/-- A federation that is ready for calls. -/
structure OpenFederation where
  backend : Backend
  names : List String
  timeoutMillis : Option Nat

/-- The federation that a configuration describes. -/
def openFederation (files : FileAccess m) (config : FederationConfig) :
    m (Step OpenFederation) := do
  let backends <- openBackends files config.backends
  pure (backends.map fun backends =>
    { backend := .federation ⟨config.antiAffinity, config.names, true⟩ backends
      names := config.names
      timeoutMillis := config.timeoutMillis })

/-- Load the federation of a command. -/
def loadFederation (files : FileAccess m) (options : FederationOptions) :
    m (Step OpenFederation) := do
  match ← loadConfig files options.config with
  | .error chain => pure (.error chain)
  | .ok config => openFederation files ((override? options config).getD config)

/-- Call a federation: print the answer, and the statistics of the call if they are asked for. -/
def callFederation {Answer : Type} (request : Request Answer) (toJson : Answer -> Json)
    (wording : String) (withStats : Bool) (federation : OpenFederation) : Outcome :=
  let scope := CallScope.enter federation.timeoutMillis
  match (federation.backend.call request scope.cancellation).ending with
  | .crashed message => .failure [wording, message]
  | .returned (.error fault) => .failure (wording :: scope.explain fault)
  | .returned (.ok answer) =>
      let trace := federation.backend.traceOfCall request scope.cancellation
      let stats := CallStats.hook.feed [] trace.observations (CallStats.start federation.names)
      .success ((toJson answer).indented ++ "\n") (if withStats then stats.describe else "")

/-- Load the federation of a command and call it. -/
def runCall {Answer : Type} (files : FileAccess m) (options : FederationOptions)
    (request : Request Answer) (toJson : Answer -> Json) (wording : String) : m Outcome := do
  match ← loadFederation files options with
  | .error chain => pure (.failure chain)
  | .ok federation => pure (callFederation request toJson wording options.withStats federation)

/-- What is wrong with the range of a query, if anything. -/
def rangeFailure? (start stop : Instant) (stepSeconds : Nat) : Option String :=
  if stop.isBefore start then some "Range end must not be before start"
  else if stepSeconds = 0 then some "Step must be positive"
  else none

/-- Carry out a command. -/
def runCommand (files : FileAccess m) : Command -> m Outcome
  | .labelValues options label =>
      runCall files options (.labelValues label) (fun values => .array (values.map Json.string))
        ("label values of '" ++ label ++ "'")
  | .query options text _ =>
      runCall files options (.query text) QueryResult.toJson ("query '" ++ text ++ "'")
  | .queryRange options text start stop stepSeconds =>
      match rangeFailure? start stop stepSeconds with
      | some failure => pure (.failure [failure])
      | none =>
          runCall files options (.queryRange text ⟨start, stop, .ofSeconds stepSeconds⟩)
            QueryResult.toJson ("range query '" ++ text ++ "'")
  | .series options metrics _ _ =>
      runCall files options (.series metrics) (fun sets => .array (sets.map LabelSet.toJson))
        "series lookup"
  | .validate path asJson => runValidate files path asJson
  | .info path asJson => runInfo files path asJson

/-! ## The whole program -/

/-- The text of the first file of settings that is there. -/
def settingsText (files : FileAccess m) : List String -> m (Option String)
  | [] => pure none
  | path :: paths => do
      match ← files.read path with
      | .ok text => pure (some text)
      | .error .notFound => settingsText files paths
      | .error .isDirectory => settingsText files paths
      | .error _ => pure none

/-- The variables that the options consult, with their values: those of the environment, and those of a
file of settings that the environment does not have. -/
def variablesOf (world : World m) : m (List (String × String)) := do
  let assignments :=
    match ← settingsText world.files world.settingsPaths with
    | some text => Variables.parse text
    | none => []
  let settings <- Variables.settingsOf world.variableValue assignments
  let values <- variableNames.mapM fun name => do
    pure (name, ← Variables.valueOf? world.variableValue settings name)
  pure (values.filterMap fun entry => entry.2.map fun value => (entry.1, value))

/-- Run the program with the words of its command line. -/
def run (world : World m) (words : List String) : m Outcome := do
  let values <- variablesOf world
  match parse (fun name => values.lookup name) words with
  | .ok invocation => runCommand world.files invocation.command
  | .error rejection => pure (.ofRejection rejection)

end CommandLine
end QueryFederation
