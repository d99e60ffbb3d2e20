import StructuredQuery.Command

/-!
# The program

Reads the files and the input that a command line needs, and writes its outcome.
-/

namespace StructuredQuery

/-- A number of an error of the system, which may come negated. -/
def errorNumber (code : UInt32) : UInt32 :=
  min code (0 - code)

/-- The reason for which a file could not be read. -/
def fileError : IO.Error → FileError
  | .noFileOrDirectory .. => .notFound
  | .permissionDenied .. => .denied
  | .inappropriateType _ code _ =>
    if errorNumber code = 20 then .notDirectory else .isDirectory
  | error@(.invalidArgument _ code _) =>
    if errorNumber code = 36 then .nameTooLong else .other error.toString
  | error => .other error.toString

/-- The bytes of a file as a text. -/
def readText (bytes : IO ByteArray) : IO (Except FileError String) := do
  try
    match String.fromUTF8? (← bytes) with
    | some text => return .ok text
    | none => return .error .notText
  catch error => return .error (fileError error)

/-- The files of the given names. -/
def readFiles (names : List String) : IO (List (String × Except FileError String)) :=
  names.mapM fun (name : String) => return (name, ← readText (IO.FS.readBinFile name))

/-- The sources of a command line. -/
def gather (invocation : Invocation) : IO Sources := do
  let files ← readFiles invocation.files
  let input ← match invocation.request with
    | .compose "-" => readText do (← IO.getStdin).readBinToEnd
    | _ => pure (.ok "")
  let strictSetting ← IO.getEnv Command.strictSettingName
  return {
    file := fun name => (files.lookup name).getD (.error .notFound)
    input, strictSetting }

/-- Carries out a command line. -/
def perform (arguments : List String) : IO UInt32 := do
  let outcome ← match Invocation.ofArguments arguments with
    | .ok invocation => Command.runOutcome invocation <$> gather invocation
    | .error stop => pure (Command.stopOutcome stop)
  (← IO.getStdout).putStr outcome.output
  (← IO.getStderr).putStr outcome.errors
  return UInt32.ofNat outcome.exitCode

end StructuredQuery

/-- The program. -/
def main (arguments : List String) : IO UInt32 :=
  StructuredQuery.perform arguments
