import QueryFederation.Files.Fault

/-!
# Access to files

What the library needs of a file system: the text of a file, and whether something stands at a path.
The functions that load configurations and fixtures take such an access as an argument.  They are the
same for the files of an operating system and for a tree of files in memory, and everything about
them can be stated with the latter.
-/

namespace QueryFederation

/-- Access to files, in a monad that does the reading. -/
structure FileAccess (m : Type -> Type) where
  /-- The text of the file at a path. -/
  read : String -> m (Except FileFault String)
  /-- Whether a file or a directory stands at a path. -/
  isPresent : String -> m Bool

end QueryFederation
