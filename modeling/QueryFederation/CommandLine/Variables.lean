import QueryFederation.Text.Blank

/-!
# Files that set variables

A file of settings has one assignment on a line, perhaps after the word `export`; a quoted value may
span lines.  Blank lines and comments are skipped.  Reading stops at the first line that is none of
these, and the assignments before it count.

A value is divided into pieces: text, and names of variables whose values are put in.  Between
apostrophes everything is text.  Between quotes and outside of them a backslash escapes a few characters,
and a dollar sign begins the name of a variable, bare or in braces.  White space outside of quotes ends
the value; only a comment may follow.
-/

namespace QueryFederation
namespace Variables

/-- A piece of a value. -/
inductive Piece where
  | character (character : Char)
  | variable (name : String)
  deriving DecidableEq, Repr

/-- An assignment in pieces. -/
structure Assignment where
  name : String
  value : List Piece
  deriving DecidableEq, Repr

/-! ## Lines -/

/-- What a text up to some character leaves open. -/
inductive Openness where
  | complete
  /-- White space outside of quotes, after which a comment may begin. -/
  | afterSpace
  | escape
  | inApostrophes
  | inApostrophesEscape
  | inQuotes
  | inQuotesEscape
  | comment
  deriving DecidableEq, Repr

namespace Openness

/-- What a character outside of quotes leaves open. -/
def outside (character : Char) : Openness :=
  if character = '\\' then escape
  else if character = '"' then inQuotes
  else if character = '\'' then inApostrophes
  else complete

/-- What is left open after one more character. -/
def step (state : Openness) (character : Char) : Openness :=
  match state with
  | complete =>
      if Blank.isBlank character ∧ character ≠ '\n' ∧ character ≠ '\r' then afterSpace
      else outside character
  | afterSpace => if character = '#' then comment else outside character
  | escape => complete
  | inApostrophes =>
      if character = '\\' then inApostrophesEscape
      else if character = '\'' then complete
      else inApostrophes
  | inApostrophesEscape => inApostrophes
  | inQuotes =>
      if character = '\\' then inQuotesEscape
      else if character = '"' then complete
      else inQuotes
  | inQuotesEscape => inQuotes
  | comment => comment

end Openness

/-- Divide a text after its first newline. -/
def splitLine : List Char -> List Char × List Char
  | [] => ([], [])
  | '\n' :: rest => (['\n'], rest)
  | character :: rest =>
      let (line, later) := splitLine rest
      (character :: line, later)

/-- A line without its end. -/
def dropLineEnd (line : List Char) : List Char :=
  match line.reverse with
  | '\n' :: '\r' :: rest => rest.reverse
  | '\n' :: rest => rest.reverse
  | _ => line

/-- A line up to the comment that it leaves open, and what it leaves open. -/
def scanLine (state : Openness) : List Char -> List Char × Openness
  | [] => ([], state)
  | character :: rest =>
      match state.step character with
      | .comment => ([], .comment)
      | state =>
          let (kept, last) := scanLine state rest
          (character :: kept, last)

/-- Whether a text is a comment as a whole. -/
def isComment (text : List Char) : Bool :=
  (Blank.dropLeading text).head? == some '#'

/-- Read one logical line, which may span several lines when quotes are open.  `front` holds the lines
before, in their order.  Nothing when the text ends too early. -/
def logicalLine? : Nat -> List Char -> Openness -> List Char -> Option (List Char × List Char)
  | 0, _, _, _ => none
  | bound + 1, front, state, text =>
      if text.isEmpty then none
      else
        let (line, rest) := splitLine text
        if isComment (front ++ line) then some ([], rest)
        else
          match scanLine state line with
          | (_, .complete) => some (dropLineEnd (front ++ line), rest)
          | (kept, .comment) => some (front ++ kept, rest)
          | (_, state) => logicalLine? bound (front ++ line) state rest

/-! ## Values -/

/-- A character that an escape stands for. -/
def escaped? (character : Char) : Option Char :=
  if ['\\', '\'', '"', '$', ' '].contains character then some character
  else if character = 'n' then some '\n'
  else none

/-- Whether a character may stand in the bare name of a variable: an ASCII letter or digit, or a character
of another script. -/
def isNameCharacter (character : Char) : Bool :=
  character.isAlphanum || (128 ≤ character.toNat && !Blank.isBlank character)

/-- Where a value is being read. -/
inductive Place where
  | bare
  | quotes
  | apostrophes
  deriving DecidableEq, Repr

mutual

/-- Read the rest of a value. -/
def pieces? : Nat -> Place -> List Char -> Option (List Piece)
  | 0, _, _ => none
  | _ + 1, place, [] => if place = .bare then some [] else none
  | bound + 1, .apostrophes, character :: rest =>
      if character = '\'' then pieces? bound .bare rest
      else (pieces? bound .apostrophes rest).map (.character character :: ·)
  | bound + 1, place, '$' :: rest => afterDollar? bound place rest
  | bound + 1, place, '\\' :: rest =>
      match rest with
      | [] => if place = .bare then some [] else none
      | character :: rest => do
          let character <- escaped? character
          let pieces <- pieces? bound place rest
          some (.character character :: pieces)
  | bound + 1, .quotes, character :: rest =>
      if character = '"' then pieces? bound .bare rest
      else (pieces? bound .quotes rest).map (.character character :: ·)
  | bound + 1, .bare, character :: rest =>
      if character = '\'' then pieces? bound .apostrophes rest
      else if character = '"' then pieces? bound .quotes rest
      else if character = ' ' ∨ character = '\t' then
        match rest.dropWhile (fun character => character == ' ' || character == '\t') with
        | [] => some []
        | '#' :: _ => some []
        | _ => none
      else (pieces? bound .bare rest).map (.character character :: ·)

/-- Read on after a dollar sign.  The character right after a bare name is text, whatever it is, unless
it is another dollar sign. -/
def afterDollar? : Nat -> Place -> List Char -> Option (List Piece)
  | 0, _, _ => none
  | bound + 1, place, '\x7b' :: rest =>
      match rest.dropWhile (· != '\x7d') with
      | [] => none
      | _ :: later =>
          (pieces? bound place later).map
            (.variable (String.ofList (rest.takeWhile (· != '\x7d'))) :: ·)
  | bound + 1, place, text =>
      let named := Piece.variable (String.ofList (text.takeWhile isNameCharacter))
      match text.dropWhile isNameCharacter with
      | [] => if place = .bare then some [named] else none
      | '$' :: rest => (afterDollar? bound place rest).map (named :: ·)
      | character :: rest =>
          (pieces? bound place rest).map fun pieces => named :: .character character :: pieces

end

/-! ## Files -/

/-- Whether a character may begin a name that is set. -/
def beginsName (character : Char) : Bool :=
  character.isAlpha || character == '_'

/-- Whether a character may stand in a name that is set. -/
def continuesName (character : Char) : Bool :=
  character.isAlphanum || character == '_' || character == '.'

/-- Read the name that is set, and white space after it. -/
def name? (text : List Char) : Option (String × List Char) :=
  match text with
  | [] => none
  | first :: _ =>
      if beginsName first then
        some (String.ofList (text.takeWhile continuesName),
          Blank.dropLeading (text.dropWhile continuesName))
      else none

/-- Take the equals sign. -/
def equals? : List Char -> Option (List Char)
  | '=' :: rest => some rest
  | _ => none

/-- Read the name and the equals sign of an assignment.  The word `export` is a name itself when an
equals sign follows it. -/
def target? (text : List Char) : Option (String × List Char) := do
  let (name, text) <- name? text
  match equals? text with
  | some rest => some (name, rest)
  | none =>
      if name = "export" then do
        let (name, text) <- name? text
        let rest <- equals? text
        some (name, rest)
      else none

/-- Read a logical line: an assignment, or none on a blank line. -/
def assignment? (line : List Char) : Option (Option Assignment) :=
  let text := Blank.dropLeading (Blank.dropTrailing line)
  if text.isEmpty ∨ text.head? = some '#' then some none
  else do
    let (name, rest) <- target? text
    let value := Blank.dropLeading rest
    if value.isEmpty ∨ value.head? = some '#' then some (some ⟨name, []⟩)
    else
      let pieces <- pieces? (2 * value.length + 2) .bare value
      some (some ⟨name, pieces⟩)

/-- Read assignments up to the end or to the first line that cannot be read. -/
def assignmentsFrom : Nat -> List Char -> List Assignment
  | 0, _ => []
  | bound + 1, text =>
      match logicalLine? (text.length + 1) [] .complete text with
      | none => []
      | some (line, rest) =>
          match assignment? line with
          | none => []
          | some none => assignmentsFrom bound rest
          | some (some assignment) => assignment :: assignmentsFrom bound rest

/-- The assignments in the text of a file. -/
def parse (text : String) : List Assignment :=
  let characters :=
    match text.toList with
    | '\ufeff' :: rest => rest
    | characters => characters
  assignmentsFrom (characters.length + 1) characters

/-! ## Settings -/

/-- Variables that were set, the first one of a name counts. -/
abbrev Settings :=
  List (String × String)

variable {m : Type -> Type} [Monad m]

/-- The value of a variable, from outside or else from the settings. -/
def valueOf? (outside : String -> m (Option String)) (settings : Settings) (name : String) :
    m (Option String) := do
  match ← outside name with
  | some value => pure (some value)
  | none => pure (settings.lookup name)

/-- The text of a piece; a variable that is not set leaves nothing. -/
def Piece.text (outside : String -> m (Option String)) (settings : Settings) :
    Piece -> m (List Char)
  | .character literal => pure [literal]
  | .variable name => do
      match ← valueOf? outside settings name with
      | some value => pure value.toList
      | none => pure []

/-- Carry out an assignment.  A variable that is set already keeps its value. -/
def Assignment.carryOut (outside : String -> m (Option String)) (settings : Settings)
    (assignment : Assignment) : m Settings := do
  let texts <- assignment.value.mapM (Piece.text outside settings)
  pure (settings ++ [(assignment.name, String.ofList texts.flatten)])

/-- The settings that assignments make. -/
def settingsOf (outside : String -> m (Option String)) (assignments : List Assignment) :
    m Settings :=
  assignments.foldlM (Assignment.carryOut outside) []

end Variables
end QueryFederation
