/-!
# File paths

A path is a text in which slashes separate names.  Paths are taken apart and joined by their text
alone: nothing is looked up, and no part is ever changed.

Two spellings are passed over when a path is read from its end, because they name nothing: repeated or
final slashes, and a single point after a slash.  A point in front stays, and so does the slash of the
root.
-/

namespace QueryFederation
namespace Path

/-- Whether a path starts at the root. -/
def isAbsolute (path : String) : Bool :=
  path.toList.head? == some '/'

/-- A path, written from its end, without what names nothing there. -/
def trimReversed : List Char -> List Char
  | '/' :: character :: rest => trimReversed (character :: rest)
  | '.' :: '/' :: rest => trimReversed ('/' :: rest)
  | path => path
termination_by path => path.length

/-- The last name of a path and what stands before it, both written from the end. -/
def splitReversed (path : String) : List Char × List Char :=
  let trimmed := trimReversed path.toList.reverse
  (trimmed.takeWhile (· != '/'), trimmed.dropWhile (· != '/'))

/-- The name of the file that a path leads to.  A path that ends in points leads to no file by
name. -/
def fileName? (path : String) : Option String :=
  let name := String.ofList (splitReversed path).1.reverse
  if name = "" ∨ name = "." ∨ name = ".." then none else some name

/-- The part of a file name after its last point.  A point in front begins no extension. -/
def extension? (path : String) : Option String :=
  match fileName? path with
  | none => none
  | some name =>
      let reversed := name.toList.reverse
      let stem := (reversed.dropWhile (· != '.')).drop 1
      if stem.isEmpty then none
      else some (String.ofList (reversed.takeWhile (· != '.')).reverse)

/-- The path of the directory that holds the file; empty for a bare file name. -/
def parent? (path : String) : Option String :=
  (fileName? path).map fun _ =>
    String.ofList (trimReversed (splitReversed path).2).reverse

/-- A relative path, seen from a base.  One slash separates the two unless the base ends in one or is
empty. -/
def join (base relative : String) : String :=
  if base = "" ∨ base.toList.getLast? = some '/' then base ++ relative
  else base ++ "/" ++ relative

/-- A path seen from a base; an absolute one stays as it is. -/
def resolve (base path : String) : String :=
  if isAbsolute path then path else join base path

/-- The parts of a path between its slashes. -/
def parts (path : String) : List String :=
  (path.toList.splitOn '/').map String.ofList

end Path
end QueryFederation
