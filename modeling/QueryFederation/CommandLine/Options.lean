/-!
# Options of a command line

A command line is read from left to right.  Its words are options with or without a value, short
options in clusters, the names of commands, and operands.  After two dashes alone every word is an
operand.

An option that takes a value accepts it attached, or as the next word unless that one looks like an
option.  The value of the next word is examined only when something follows that cannot belong to the
option any more.  This decides which of two mistakes is found first, and so whether a request for help
that follows a mistake is still answered.

An option that was not given may be given by a variable of the environment instead.
-/

namespace QueryFederation
namespace CommandLine

/-- Why a command line is not carried out. -/
inductive Rejection where
  /-- It breaks the rules. -/
  | usage
  /-- It asks for help. -/
  | help
  /-- It asks for the version. -/
  | version
  deriving DecidableEq, Repr

/-- How often an option may be given, and whether it takes a value. -/
inductive OptionKind where
  /-- At most once, without a value. -/
  | flag
  /-- Any number of times, without a value; what counts is how often. -/
  | count
  /-- At most once, with a value. -/
  | value
  /-- Any number of times, with a value each time. -/
  | list
  deriving DecidableEq, Repr

namespace OptionKind

/-- Whether an option takes a value. -/
def takesValue : OptionKind -> Bool
  | flag => false
  | count => false
  | value => true
  | list => true

/-- Whether an option may be given more than once. -/
def isRepeatable : OptionKind -> Bool
  | flag => false
  | count => true
  | value => false
  | list => true

end OptionKind

/-- An option. -/
structure OptionRule where
  long : String
  short : Option Char
  kind : OptionKind
  /-- The variable that may give the option. -/
  variableName : Option String
  /-- Whether a text is a value of the option. -/
  accepts : String -> Bool

/-- A command, or what comes before the name of a command. -/
structure CommandRule where
  options : List OptionRule
  /-- The number of operands; all of them must be there. -/
  operands : Nat
  /-- The names of the commands that may follow. -/
  commands : List String
  /-- Whether the version may be asked for. -/
  hasVersion : Bool

/-- Where the value of an option comes from. -/
inductive Source where
  | environment
  | commandLine
  deriving DecidableEq, Repr

/-- An option that is given, with its value; the value of one that takes none is empty. -/
structure GivenOption where
  long : String
  value : String
  source : Source
  deriving DecidableEq, Repr

/-- What has been read of a command line. -/
structure Reading where
  options : List GivenOption
  operands : List String
  /-- The option whose value is not examined yet, and the value if it is there already. -/
  pending : Option (OptionRule × Option String)

namespace Reading

/-- Nothing has been read. -/
def start : Reading :=
  ⟨[], [], none⟩

/-- Whether an option is given. -/
def isGiven (reading : Reading) (long : String) : Bool :=
  reading.options.any fun option => option.long == long

/-- The values of an option in their order. -/
def valuesOf (reading : Reading) (long : String) : List String :=
  (reading.options.filter fun option => option.long == long).map GivenOption.value

/-- The value of an option that is given once. -/
def value? (reading : Reading) (long : String) : Option String :=
  (reading.valuesOf long).head?

/-- The source of an option, if it is given. -/
def source? (reading : Reading) (long : String) : Option Source :=
  (reading.options.find? fun option => option.long == long).map GivenOption.source

/-- Whether the next word may be the value of an option. -/
def awaitsValue (reading : Reading) : Bool :=
  match reading.pending with
  | some (_, none) => true
  | _ => false

/-- Examine an option with its value and add it. -/
def add (reading : Reading) (rule : OptionRule) (value : String) (source : Source) :
    Except Rejection Reading :=
  if !rule.kind.isRepeatable && reading.isGiven rule.long then .error .usage
  else if rule.kind.takesValue && !rule.accepts value then .error .usage
  else .ok { reading with options := reading.options ++ [⟨rule.long, value, source⟩] }

/-- Examine the pending option, if there is one. -/
def settle (reading : Reading) : Except Rejection Reading :=
  match reading.pending with
  | none => .ok reading
  | some (_, none) => .error .usage
  | some (rule, some value) => add { reading with pending := none } rule value .commandLine

/-- Take an option without a value. -/
def takeFlag (reading : Reading) (rule : OptionRule) : Except Rejection Reading := do
  let reading <- reading.settle
  reading.add rule "" .commandLine

/-- Take an option with the value attached to it. -/
def takeAttached (reading : Reading) (rule : OptionRule) (value : String) :
    Except Rejection Reading := do
  let reading <- reading.settle
  reading.add rule value .commandLine

/-- Take an option whose value is the next word. -/
def takeOpen (reading : Reading) (rule : OptionRule) : Except Rejection Reading := do
  let reading <- reading.settle
  .ok { reading with pending := some (rule, none) }

/-- Take a request for help or for the version. -/
def takeRequest (reading : Reading) (request : Rejection) : Except Rejection Reading := do
  let _ <- reading.settle
  .error request

/-- Take a word that is the value of the pending option, or else an operand. -/
def takeWord (command : CommandRule) (reading : Reading) (word : String) :
    Except Rejection Reading :=
  match reading.pending with
  | some (rule, none) => .ok { reading with pending := some (rule, some word) }
  | _ =>
      if reading.operands.length < command.operands then do
        let reading <- reading.settle
        .ok { reading with operands := reading.operands ++ [word] }
      else .error .usage

/-- Take a word after the two dashes. -/
def takeOperand (command : CommandRule) (reading : Reading) (word : String) :
    Except Rejection Reading := do
  let reading <- reading.settle
  reading.takeWord command word

/-- Divide a long option at its first equals sign. -/
def splitLong (characters : List Char) : String × Option String :=
  match characters.dropWhile (· != '=') with
  | [] => (String.ofList characters, none)
  | _ :: value => (String.ofList (characters.takeWhile (· != '=')), some (String.ofList value))

/-- Take a long option, given without its dashes. -/
def takeLong (command : CommandRule) (reading : Reading) (characters : List Char) :
    Except Rejection Reading :=
  let (long, value?) := splitLong characters
  match command.options.find? (fun rule => rule.long == long), value? with
  | some rule, some value =>
      if rule.kind.takesValue then reading.takeAttached rule value else .error .usage
  | some rule, none =>
      if rule.kind.takesValue then reading.takeOpen rule else reading.takeFlag rule
  | none, none =>
      if long = "help" then reading.takeRequest .help
      else if long = "version" ∧ command.hasVersion = true then reading.takeRequest .version
      else .error .usage
  | none, some _ => .error .usage

/-- Take a cluster of short options.  What follows an option with a value is its value; an equals sign
between the two is dropped. -/
def takeCluster (command : CommandRule) : Reading -> List Char -> Except Rejection Reading
  | reading, [] => .ok reading
  | reading, letter :: rest =>
      match command.options.find? (fun rule => rule.short == some letter) with
      | some rule =>
          if rule.kind.takesValue then
            match rest with
            | [] => reading.takeOpen rule
            | '=' :: value => reading.takeAttached rule (String.ofList value)
            | value => reading.takeAttached rule (String.ofList value)
          else
            match reading.takeFlag rule with
            | .ok reading => takeCluster command reading rest
            | .error rejection => .error rejection
      | none =>
          if letter = 'h' then reading.takeRequest .help
          else if letter = 'V' ∧ command.hasVersion = true then reading.takeRequest .version
          else .error .usage

/-- Take a word before the two dashes. -/
def take (command : CommandRule) (reading : Reading) (word : String) : Except Rejection Reading :=
  match word.toList with
  | '-' :: '-' :: long => reading.takeLong command long
  | '-' :: letter :: rest => takeCluster command reading (letter :: rest)
  | _ => reading.takeWord command word

/-- The name of a command at which reading stops, and the words after it. -/
abbrev Continuation :=
  Option (String × List String)

/-- Take words up to the name of a command. -/
def takeAll (command : CommandRule) (afterDashes : Bool) :
    Reading -> List String -> Except Rejection (Reading × Continuation)
  | reading, [] => .ok (reading, none)
  | reading, word :: words =>
      if afterDashes then do
        let reading <- reading.takeOperand command word
        takeAll command true reading words
      else if !reading.awaitsValue && command.commands.contains word then
        .ok (reading, some (word, words))
      else if word = "--" then takeAll command true reading words
      else do
        let reading <- reading.take command word
        takeAll command false reading words

/-- Give an option by its variable, unless it is given already. -/
def addVariable (variableValue : String -> Option String) (reading : Reading) (rule : OptionRule) :
    Except Rejection Reading :=
  if reading.isGiven rule.long then .ok reading
  else
    match rule.variableName.bind variableValue with
    | none => .ok reading
    | some value =>
        if rule.accepts value then
          .ok { reading with
            options := reading.options ++ [⟨rule.long, value, .environment⟩] }
        else .error .usage

/-- The end of reading: the last option is examined, variables are consulted, and all operands must be
there. -/
def finish (command : CommandRule) (variableValue : String -> Option String) (reading : Reading) :
    Except Rejection Reading := do
  let reading <- reading.settle
  let reading <- command.options.foldlM (addVariable variableValue) reading
  if reading.operands.length = command.operands then .ok reading else .error .usage

end Reading
end CommandLine
end QueryFederation
