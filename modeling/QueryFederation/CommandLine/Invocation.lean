import QueryFederation.CommandLine.Options
import QueryFederation.Time.Reading

/-!
# Invocations of the program

What a valid command line says: how much to log and in which form, and one of six commands with its
settings.

The options about logging may stand before and after the name of the command.  Each side is read on its
own, with the variables of the environment, and the side after the name decides, unless only the other
one was given on the command line itself.  Silence and verbosity exclude each other on one side.
-/

namespace QueryFederation
namespace CommandLine

/-- The forms of log messages. -/
inductive LogFormat where
  | json
  | pretty
  | compact
  deriving DecidableEq, Repr

namespace LogFormat

/-- The form with a given name. -/
def ofName? (text : String) : Option LogFormat :=
  if text = "json" then some json
  else if text = "pretty" then some pretty
  else if text = "compact" then some compact
  else none

end LogFormat

/-- The settings of every command that asks a federation. -/
structure FederationOptions where
  config : String
  antiAffinityMillis : Option Nat
  timeoutMillis : Option Nat
  withStats : Bool
  metricsPort : Option Nat
  deriving DecidableEq, Repr

/-- The commands. -/
inductive Command where
  | labelValues (federation : FederationOptions) (label : String)
  | query (federation : FederationOptions) (text : String) (time : Option Instant)
  | queryRange (federation : FederationOptions) (text : String) (start stop : Instant)
      (stepSeconds : Nat)
  | series (federation : FederationOptions) (metrics : List String) (start stop : Option Instant)
  | validate (config : String) (asJson : Bool)
  | info (config : String) (asJson : Bool)
  deriving DecidableEq, Repr

/-- A valid command line. -/
structure Invocation where
  verbosity : Nat
  isQuiet : Bool
  logFormat : LogFormat
  command : Command
  deriving DecidableEq, Repr

/-! ## Values of options -/

/-- Read a natural number of 64 bits; a plus may stand before it. -/
def natural64? (text : String) : Option Nat :=
  let digits :=
    match text.toList with
    | '+' :: rest => rest
    | digits => digits
  if digits.isEmpty ∨ !digits.all Char.isDigit then none
  else if Digits.toNat digits < Nat.pow 2 64 then some (Digits.toNat digits)
  else none

/-- Read a number up to a small bound; a sign may stand before it. -/
def smallNatural? (bound : Nat) (text : String) : Option Nat :=
  let (negative, digits) := Decimal.sign text.toList
  if digits.isEmpty ∨ !digits.all Char.isDigit then none
  else
    let value := Digits.toNat digits
    if (negative = true ∧ value ≠ 0) ∨ bound ≤ value then none else some value

/-- Read a point in time. -/
def instant? (text : String) : Option Instant :=
  match Instant.read text with
  | .ok instant => some instant
  | .error _ => none

/-- The greatest verbosity. -/
def greatestVerbosity : Nat :=
  255

/-- Read a verbosity. -/
def verbosity? : String -> Option Nat :=
  smallNatural? (greatestVerbosity + 1)

/-- Read the 16-bit number under which a network service listens. -/
def serviceNumber? : String -> Option Nat :=
  smallNatural? 65536

/-- The configuration file of a command that is told none. -/
def defaultConfig : String :=
  "promfed.toml"

/-- The step of a range query in seconds, when none is given. -/
def defaultStepSeconds : Nat :=
  15

/-! ## The options -/

/-- An option with a value that some function reads. -/
def valueRule {Value : Type} (long : String) (variableName : Option String)
    (read? : String -> Option Value) : OptionRule :=
  ⟨long, none, .value, variableName, fun text => (read? text).isSome⟩

/-- An option without a value. -/
def flagRule (long : String) : OptionRule :=
  ⟨long, none, .flag, none, fun _ => true⟩

/-- The options about logging. -/
def loggingRules : List OptionRule :=
  [⟨"verbose", some 'v', .count, some "PROMFED_VERBOSE", fun text => (verbosity? text).isSome⟩,
    ⟨"quiet", some 'q', .flag, none, fun _ => true⟩,
    valueRule "log-format" (some "PROMFED_LOG_FORMAT") LogFormat.ofName?]

/-- The option that names the configuration file, and the variable that may do so. -/
def configRule (variableName : Option String) : OptionRule :=
  ⟨"config", some 'c', .value, variableName, fun text => text != ""⟩

/-- The options of every command that asks a federation. -/
def federationRules : List OptionRule :=
  [configRule (some "PROMFED_CONFIG"),
    valueRule "anti-affinity-ms" (some "PROMFED_ANTI_AFFINITY_MS") natural64?,
    valueRule "timeout-ms" (some "PROMFED_TIMEOUT_MS") natural64?,
    flagRule "stats",
    valueRule "metrics-port" (some "PROMFED_METRICS_PORT") serviceNumber?]

/-- The kinds of command. -/
inductive CommandName where
  | labelValues
  | query
  | queryRange
  | series
  | validate
  | info
  deriving DecidableEq, Repr

namespace CommandName

/-- All kinds. -/
def all : List CommandName :=
  [labelValues, query, queryRange, series, validate, info]

/-- The name of a kind of command. -/
def name : CommandName -> String
  | labelValues => "label-values"
  | query => "query"
  | queryRange => "query-range"
  | series => "series"
  | validate => "validate"
  | info => "info"

/-- The kind with a given name. -/
def ofName? (text : String) : Option CommandName :=
  all.find? fun kind => kind.name == text

/-- The options of a kind of command of its own. -/
def rules : CommandName -> List OptionRule
  | labelValues => federationRules
  | query => federationRules ++ [valueRule "time" none instant?]
  | queryRange =>
      federationRules ++ [valueRule "start" none instant?, valueRule "end" none instant?,
        valueRule "step" none natural64?]
  | series =>
      federationRules ++ [⟨"match", none, .list, none, fun _ => true⟩,
        valueRule "start" none instant?, valueRule "end" none instant?]
  | validate => [configRule none, flagRule "json"]
  | info => [configRule none, flagRule "json"]

/-- The number of operands of a kind of command. -/
def operands : CommandName -> Nat
  | labelValues => 1
  | query => 1
  | queryRange => 1
  | series => 0
  | validate => 0
  | info => 0

/-- The rule of a kind of command. -/
def rule (kind : CommandName) : CommandRule :=
  { options := kind.rules ++ loggingRules
    operands := kind.operands
    commands := []
    hasVersion := false }

end CommandName

/-- The command that asks for help. -/
def helpCommand : String :=
  "help"

/-- The rule of what comes before the name of a command. -/
def programRule : CommandRule :=
  { options := loggingRules
    operands := 0
    commands := CommandName.all.map CommandName.name ++ [helpCommand]
    hasVersion := true }

/-- The variables of the environment that options consult. -/
def variableNames : List String :=
  ((loggingRules ++ federationRules).filterMap OptionRule.variableName)

/-! ## From options to settings -/

/-- The value of an option as some function reads it. -/
def setting? {Value : Type} (reading : Reading) (long : String) (read? : String -> Option Value) :
    Option Value :=
  (reading.value? long).bind read?

/-- The configuration file. -/
def configOf (reading : Reading) : String :=
  (reading.value? "config").getD defaultConfig

/-- The settings of a command that asks a federation. -/
def federationOf (reading : Reading) : FederationOptions :=
  { config := configOf reading
    antiAffinityMillis := setting? reading "anti-affinity-ms" natural64?
    timeoutMillis := setting? reading "timeout-ms" natural64?
    withStats := reading.isGiven "stats"
    metricsPort := setting? reading "metrics-port" serviceNumber? }

/-- The command that a reading describes; nothing when a part of it is missing. -/
def commandOf? (kind : CommandName) (reading : Reading) : Option Command :=
  match kind with
  | .labelValues => do
      some (.labelValues (federationOf reading) (← reading.operands.head?))
  | .query => do
      some (.query (federationOf reading) (← reading.operands.head?)
        (setting? reading "time" instant?))
  | .queryRange => do
      some (.queryRange (federationOf reading) (← reading.operands.head?)
        (← setting? reading "start" instant?) (← setting? reading "end" instant?)
        ((setting? reading "step" natural64?).getD defaultStepSeconds))
  | .series =>
      some (.series (federationOf reading) (reading.valuesOf "match")
        (setting? reading "start" instant?) (setting? reading "end" instant?))
  | .validate => some (.validate (configOf reading) (reading.isGiven "json"))
  | .info => some (.info (configOf reading) (reading.isGiven "json"))

/-- Whether the options about logging on one side exclude each other. -/
def isConflicting (reading : Reading) : Bool :=
  reading.isGiven "quiet" && reading.isGiven "verbose"

/-- Finish one side of the command line. -/
def finishSide (rule : CommandRule) (variableValue : String -> Option String) (reading : Reading) :
    Except Rejection Reading := do
  let reading <- reading.finish rule variableValue
  if isConflicting reading then .error .usage else .ok reading

/-- The side that decides on an option: the second one, unless the first one was given on the command
line and the second one was not. -/
def decidingSide (first second : Reading) (long : String) : Reading :=
  match first.source? long, second.source? long with
  | some .commandLine, some .commandLine => second
  | some .commandLine, _ => first
  | some .environment, none => first
  | _, _ => second

/-- The verbosity that one side gives: how often the option stands there, or the value of its
variable. -/
def verbosityOf (reading : Reading) : Nat :=
  match reading.source? "verbose" with
  | some .commandLine => min (reading.valuesOf "verbose").length greatestVerbosity
  | some .environment => (setting? reading "verbose" verbosity?).getD 0
  | none => 0

/-- Put both sides together. -/
def invocationOf? (before after : Reading) (kind : CommandName) : Option Invocation :=
  (commandOf? kind after).map fun command =>
    { verbosity := verbosityOf (decidingSide before after "verbose")
      isQuiet := (decidingSide before after "quiet").isGiven "quiet"
      logFormat := (setting? (decidingSide before after "log-format") "log-format"
        LogFormat.ofName?).getD .compact
      command := command }

/-- The answer to the command that asks for help: help on the program, on a command, or on that
command itself, and nothing else. -/
def helpRequest : List String -> Rejection
  | [] => .help
  | [topic] => if programRule.commands.contains topic then .help else .usage
  | _ => .usage

/-- Read a command line, without the name of the program, under the variables of the environment. -/
def parse (variableValue : String -> Option String) (words : List String) :
    Except Rejection Invocation := do
  match ← Reading.takeAll programRule false .start words with
  | (before, some (name, words)) =>
      match CommandName.ofName? name with
      | none => .error (helpRequest words)
      | some kind =>
          let (after, _) <- Reading.takeAll kind.rule false .start words
          let after <- finishSide kind.rule variableValue after
          let before <- finishSide programRule variableValue before
          match invocationOf? before after kind with
          | some invocation => .ok invocation
          | none => .error .usage
  | (before, none) => do
      let _ <- before.settle
      .error .usage

end CommandLine
end QueryFederation
