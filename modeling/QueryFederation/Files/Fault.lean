/-!
# Why a file cannot be read

The faults that reading a file can have, with the wording of the operating system.
-/

namespace QueryFederation

/-- Why a file cannot be read. -/
inductive FileFault where
  | notFound
  | isDirectory
  /-- Something before the last part of the path is a file. -/
  | notDirectory
  /-- A part of the path is longer than any name can be. -/
  | nameTooLong
  /-- The content is no UTF-8 text. -/
  | notText
  /-- The path holds the character that ends paths. -/
  | nulInPath
  /-- Another fault, in the words in which it was reported. -/
  | other (message : String)
  deriving DecidableEq, Repr

namespace FileFault

/-- The wording of a fault. -/
def message : FileFault -> String
  | notFound => "No such file or directory (os error 2)"
  | isDirectory => "Is a directory (os error 21)"
  | notDirectory => "Not a directory (os error 20)"
  | nameTooLong => "File name too long (os error 36)"
  | notText => "stream did not contain valid UTF-8"
  | nulInPath => "file name contained an unexpected NUL byte"
  | other message => message

end FileFault
end QueryFederation
