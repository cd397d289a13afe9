import QueryFederation.Files.Access
import QueryFederation.Files.Path

/-!
# Trees of files in memory

A directory tree with files, and the walk along a path through it.  The walk follows the rules of the
usual operating systems: an empty part and a single point stay where they are, two points go up, at the
root to the root itself, and whatever comes after a name must stand in a directory.
-/

namespace QueryFederation

/-- A file with its bytes, or a directory with its entries. -/
inductive FileTree where
  | file (content : ByteArray)
  | directory (entries : List (String × FileTree))

namespace FileTree

/-- The greatest length of a name, in bytes. -/
def longestName : Nat :=
  255

/-- Walk along the parts of a path.  `above` holds the directories from the parent up to the root. -/
def walk : List FileTree -> FileTree -> List String -> Except FileFault FileTree
  | _, here, [] => .ok here
  | above, here, part :: parts =>
      match here with
      | file _ => .error .notDirectory
      | directory entries =>
          if part = "" ∨ part = "." then walk above here parts
          else if part = ".." then
            match above with
            | [] => walk [] here parts
            | parent :: above => walk above parent parts
          else
            match entries.lookup part with
            | some entry => walk (here :: above) entry parts
            | none => .error (if longestName < part.utf8ByteSize then .nameTooLong else .notFound)

/-- Put something at the end of a chain of names, in a list of entries.  Directories are made on the
way, and what stood at the end is replaced. -/
def place (tree : FileTree) : List String -> List (String × FileTree) -> List (String × FileTree)
  | [], entries => entries
  | [name], entries => (name, tree) :: entries.filter (fun entry => entry.1 != name)
  | name :: names, entries =>
      let within :=
        match entries.lookup name with
        | some (directory inner) => inner
        | _ => []
      (name, directory (tree.place names within)) :: entries.filter (fun entry => entry.1 != name)

/-- The names along a path after its points are carried out. -/
def names (path : String) : List String :=
  ((Path.parts path).foldl (fun names part =>
    if part = "" ∨ part = "." then names
    else if part = ".." then names.drop 1
    else part :: names) []).reverse

end FileTree

/-- A tree of files and the names that lead to the directory in which relative paths begin. -/
structure FileSystem where
  root : FileTree
  current : List String

namespace FileSystem

/-- What stands at a path. -/
def find (system : FileSystem) (path : String) : Except FileFault FileTree :=
  if path.toList.contains '\x00' then .error .nulInPath
  else if path = "" then .error .notFound
  else if Path.isAbsolute path then FileTree.walk [] system.root (Path.parts path)
  else FileTree.walk [] system.root (system.current ++ Path.parts path)

/-- The text of the file at a path. -/
def read (system : FileSystem) (path : String) : Except FileFault String :=
  match system.find path with
  | .error fault => .error fault
  | .ok (.directory _) => .error .isDirectory
  | .ok (.file content) =>
      match String.fromUTF8? content with
      | some text => .ok text
      | none => .error .notText

/-- Whether something stands at a path. -/
def isPresent (system : FileSystem) (path : String) : Bool :=
  match system.find path with
  | .ok _ => true
  | .error _ => false

/-- Access to the files of a tree. -/
def access (system : FileSystem) : FileAccess Id :=
  { read := system.read
    isPresent := system.isPresent }

/-- Put a file or a directory at a path below the current directory. -/
def insert (system : FileSystem) (path : String) (tree : FileTree) : FileSystem :=
  match system.root with
  | .file _ => system
  | .directory entries =>
      { system with root := .directory (tree.place (system.current ++ FileTree.names path) entries) }

end FileSystem
end QueryFederation
