import QueryFederation.CommandLine.Program

/-!
# The command line program

Everything that touches the operating system: files, variables of the environment, standard output and
the exit code.
-/

open QueryFederation

namespace QueryFederation
namespace CommandLine

/-- The fault that an error of the operating system stands for. -/
def faultOf : IO.Error -> FileFault
  | .noFileOrDirectory _ _ _ => .notFound
  | .inappropriateType _ code _ => if code = 20 then .notDirectory else .isDirectory
  | error => .other (toString error)

/-- Access to the files of the operating system. -/
def systemFiles : FileAccess IO where
  read := fun path => do
    try
      match String.fromUTF8? (← IO.FS.readBinFile path) with
      | some text => return .ok text
      | none => return .error .notText
    catch error => return .error (faultOf error)
  isPresent := fun path => do
    try
      let _ <- IO.FS.Handle.mk path .read
      return true
    catch error =>
      match faultOf error with
      | .notFound => return false
      | .notDirectory => return false
      | _ => return true

/-- Where a file of settings may be: in the current directory or in one of those above. -/
def settingsPathsAbove : Nat -> String -> List String
  | 0, path => [path]
  | levels + 1, path => path :: settingsPathsAbove levels ("../" ++ path)

/-- The surroundings that the operating system gives. -/
def systemWorld : World IO :=
  { files := systemFiles
    variableValue := fun name => IO.getEnv name
    settingsPaths := settingsPathsAbove 16 ".env" }

end CommandLine
end QueryFederation

/-- Run the program. -/
def main (arguments : List String) : IO UInt32 := do
  let outcome <- CommandLine.run CommandLine.systemWorld arguments
  IO.print outcome.output
  IO.eprint outcome.errors
  return UInt32.ofNat outcome.exitCode
