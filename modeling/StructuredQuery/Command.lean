import StructuredQuery.Command.Invocation
import StructuredQuery.Command.Report
import StructuredQuery.Options
import StructuredQuery.Plan.Reader
import StructuredQuery.Query.Wire

/-!
# The command

`Invocation.run` carries out a command line on the files, the input and the setting of
the environment that it is given, and `Command.outcome` says what is written and with
what code the command ends; what is logged is not modelled.  The configuration comes from
the file that the command line names, then the setting of the environment and the flag can
make it strict.
-/

namespace StructuredQuery

/-- Why a file cannot be read. -/
inductive FileError where
  | notFound
  /-- Something that is no directory where the name goes through one. -/
  | notDirectory
  | isDirectory
  /-- A part of the name has more than 255 bytes, or all of it more than 4095. -/
  | nameTooLong
  | denied
  | notText
  | other (message : String)
  deriving DecidableEq, Repr

namespace FileError

/-- The message of an error. -/
def message : FileError → String
  | notFound => "No such file or directory (os error 2)"
  | notDirectory => "Not a directory (os error 20)"
  | isDirectory => "Is a directory (os error 21)"
  | nameTooLong => "File name too long (os error 36)"
  | denied => "Permission denied (os error 13)"
  | notText => "stream did not contain valid UTF-8"
  | other message => message

end FileError

/-- What a command can read. -/
structure Sources where
  file : String → Except FileError String
  input : Except FileError String
  /-- The setting of the environment that can ask for strictness. -/
  strictSetting : Option String

namespace Report

/-- The report of an error of building. -/
def ofError (error : BuildError) : Report :=
  ⟨error.message, error.cause?.toList⟩

/-- The report of an error that arose in doing something. -/
def within (doing : String) (error : BuildError) : Report :=
  ⟨doing, error.message :: error.cause?.toList⟩

/-- The report of a file that could not be read. -/
def ofFile (doing : String) (error : FileError) : Report :=
  ⟨doing, [error.message]⟩

end Report

namespace Value

/-- The value that an argument names: JSON, or else the argument itself as a string. -/
def ofArgument (argument : String) : Value :=
  match ofText argument with
  | .ok value => value
  | .error _ => .string argument

end Value

namespace Invocation

/-- The configuration in the file that the command line names. -/
def fileConfig (invocation : Invocation) (sources : Sources) : Except Report Config :=
  match invocation.config with
  | none => .ok .permissive
  | some file => do
    let text ← (sources.file file).mapError (Report.ofFile s!"reading config {file}")
    (Config.ofText text).mapError fun error =>
      Report.within s!"parsing config {file}" (.badConfig error)

/-- The configuration under which a command line is carried out. -/
def effectiveConfig (invocation : Invocation) (sources : Sources) : Except Report Config := do
  let config := (← invocation.fileConfig sources).override sources.strictSetting
  return if invocation.strict then .strict else config

/-- The text of a plan. -/
def planText (sources : Sources) (plan : String) : Except Report String :=
  if plan = "-" then sources.input.mapError (Report.ofFile "reading plan from stdin")
  else (sources.file plan).mapError (Report.ofFile s!"reading plan {plan}")

end Invocation

namespace Request

/-- The query that is asked for. -/
def query (sources : Sources) (config : Config) : Request → Except Report Query
  | .compose plan => do
    let text ← Invocation.planText sources plan
    let plan ← (Plan.ofText text).mapError fun error => Report.ofError (.badPlan error)
    (plan.compile config).mapError Report.ofError
  | .term text weight => .ok (.ofTerms text weight)
  | .qtext text => .ok (.qtext (.many text))
  | .constraint kind name values =>
    (config.constraintForLabel kind name (values.map Value.ofArgument)).mapError Report.ofError
  | .options file name values => do
    let text ← (sources.file file).mapError (Report.ofFile s!"reading search options {file}")
    let options ← (Options.ofText text).mapError
      (Report.within s!"parsing search options {file}")
    (options.constraintIn config name (values.map Value.ofArgument)).mapError Report.ofError

/-- The files that a request reads. -/
def files : Request → List String
  | .compose plan => if plan = "-" then [] else [plan]
  | .options file _ _ => [file]
  | .term .. | .qtext .. | .constraint .. => []

end Request

namespace Invocation

/-- The query that a command line asks for. -/
def query (invocation : Invocation) (sources : Sources) : Except Report Query := do
  invocation.request.query sources (← invocation.effectiveConfig sources)

/-- The text that a command line asks for. -/
def run (invocation : Invocation) (sources : Sources) : Except Report String := do
  let query ← invocation.query sources
  return if invocation.pretty then query.toPrettyText else query.toText

/-- The files that a command line reads. -/
def files (invocation : Invocation) : List String :=
  invocation.config.toList ++ invocation.request.files

end Invocation

/-- What a command writes, and the code with which it ends.  `errors` is about a command that
fails or is not carried out.  What a command logs on the way is no part of it, such as the
warning that an unknown label makes a range constraint. -/
structure Outcome where
  exitCode : Nat
  output : String
  errors : String
  deriving DecidableEq, Repr

namespace Command

/-- The name of the environment's setting. -/
def strictSettingName : String :=
  "STRUCTQ_STRICT"

/-- The line that names the command and its version. -/
def versionText : String :=
  "structq 0.1.0\n"

/-- Lines as a text. -/
def lines (texts : List String) : String :=
  String.join (texts.map (· ++ "\n"))

/-- What the command can do. -/
def helpText : String :=
  lines [
    "Build structured query JSON",
    "",
    "Usage: structq [OPTIONS] <COMMAND>",
    "",
    "Commands:",
    "  compose     Compile a JSON query plan (`-` reads stdin)",
    "  term        Term query",
    "  qtext       Query-text query",
    "  constraint  Constraint query of an explicit kind. Values are JSON, or plain strings",
    "  options     Constraint query whose kind is read from a search options file",
    "  help        Print this message or the help of the given subcommand(s)",
    "",
    "Options:",
    "      --strict           Report dropped shapes and unknown constraint kinds",
    "      --pretty           Pretty-print the output",
    "      --config <CONFIG>  Builder configuration file (JSON)",
    "  -h, --help             Print help",
    "  -V, --version          Print version"]

/-- What is written about a wrong command line. -/
def usageText : String :=
  lines [
    "error: invalid arguments",
    "",
    "Usage: structq [OPTIONS] <COMMAND>",
    "",
    "For more information, try '--help'."]

/-- The outcome of a command line that is not carried out. -/
def stopOutcome : Stop → Outcome
  | .usage => ⟨2, "", usageText⟩
  | .help => ⟨0, helpText, ""⟩
  | .version => ⟨0, versionText, ""⟩

/-- The outcome of a command line that is carried out, its log left out: one that succeeds has
no errors, with warnings or without. -/
def runOutcome (invocation : Invocation) (sources : Sources) : Outcome :=
  match invocation.run sources with
  | .ok text => ⟨0, text ++ "\n", ""⟩
  | .error report => ⟨1, "", report.text ++ "\n"⟩

/-- The outcome of a list of arguments. -/
def outcome (arguments : List String) (sources : Sources) : Outcome :=
  match Invocation.ofArguments arguments with
  | .ok invocation => runOutcome invocation sources
  | .error stop => stopOutcome stop

end Command

end StructuredQuery
