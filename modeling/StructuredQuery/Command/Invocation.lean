import StructuredQuery.Double.Literal

/-!
# Invocations

`Invocation.ofArguments` reads the arguments of a command line from left to right and
stops at the first that is wrong or asks for help or the version.  The flags that hold
for every request may stand before its name and after it, each once on either side.  An
argument that starts with a dash is an option, unless it is a dash alone or comes after
`--`.
-/

namespace StructuredQuery

/-- What is asked for. -/
inductive Request where
  /-- The query of a plan that is in a file, or in the input if the file is `-`. -/
  | compose (plan : String)
  | term (text : List String) (weight : Option Double)
  | qtext (text : List String)
  | constraint (kind : Option String) (name : String) (values : List String)
  /-- The constraint that the search options in a file define under a name. -/
  | options (file name : String) (values : List String)
  deriving DecidableEq

/-- A command line that can be carried out. -/
structure Invocation where
  strict : Bool
  pretty : Bool
  config : Option String
  request : Request
  deriving DecidableEq

/-- Why a command line is not carried out. -/
inductive Stop where
  | usage
  | help
  | version
  deriving DecidableEq, Repr

namespace Invocation

/-- The names of the requests. -/
inductive Name where
  | compose
  | term
  | qtext
  | constraint
  | options
  deriving DecidableEq, Repr

namespace Name

/-- All names. -/
def all : List Name :=
  [compose, term, qtext, constraint, options]

/-- The word for a name. -/
def label : Name → String
  | compose => "compose"
  | term => "term"
  | qtext => "qtext"
  | constraint => "constraint"
  | options => "options"

/-- The name of a word. -/
def ofLabel? (label : String) : Option Name :=
  all.find? (·.label = label)

/-- The option that only this request has. -/
def ownOption? : Name → Option String
  | term => some "weight"
  | constraint => some "kind"
  | compose | qtext | options => none

/-- A value that the option of a request may have. -/
def accepts (name : Name) (value : String) : Bool :=
  match name with
  | term => (Double.ofText? value).isSome
  | _ => true

/-- An operand that a request may have at some position: a plan is a single one, and the
file of search options has a name. -/
def acceptsOperand (name : Name) (position : Nat) (operand : String) : Bool :=
  match name with
  | compose => position = 0
  | options => position ≠ 0 || !operand.isEmpty
  | _ => true

end Name

/-- What has been read on one side of the name of the request. -/
structure Side where
  strict : Bool
  pretty : Bool
  config : Option String
  /-- The value of the option that only the request has. -/
  own : Option String
  operands : List String
  deriving DecidableEq

/-- A side on which nothing has been read. -/
def Side.empty : Side :=
  ⟨false, false, none, none, []⟩

/-- The argument is no option. -/
def isOperand (argument : String) : Bool :=
  argument = "-" || !"-".isPrefixOf argument

/-- The name of a long option and the value after its equals sign. -/
def splitOption (text : List Char) : String × Option String :=
  let name := text.takeWhile (· ≠ '=')
  match text.dropWhile (· ≠ '=') with
  | [] => (String.ofList name, none)
  | _ :: value => (String.ofList name, some (String.ofList value))

/-- A flag that is set now, and may not have been set before or have a value. -/
def setFlag (before : Bool) (value : Option String) : Except Stop Bool :=
  if before ∨ value.isSome then .error .usage else .ok true

/-- An option that is set now, and may not have been set before. -/
def setOption (before : Option String) (value : String) (accepts : String → Bool) :
    Except Stop (Option String) :=
  if before.isSome ∨ !accepts value then .error .usage else .ok (some value)

/-- What an option that needs a value does with it. -/
def Side.setValue (side : Side) (name : Option Name) (option value : String) :
    Except Stop Side := do
  if option = "config" then
    return { side with config := ← setOption side.config value fun value => !value.isEmpty }
  match name with
  | some name => return { side with own := ← setOption side.own value name.accepts }
  | none => .error .usage

/-- The option needs a value. -/
def needsValue (name : Option Name) (option : String) : Bool :=
  option = "config" || (name.bind Name.ownOption?) = some option

/-- What an option without need of a value does. -/
def Side.setPlain (side : Side) (name : Option Name) (option : String)
    (value : Option String) : Except Stop Side := do
  match option with
  | "strict" => return { side with strict := ← setFlag side.strict value }
  | "pretty" => return { side with pretty := ← setFlag side.pretty value }
  | "help" => .error (if value.isSome then .usage else .help)
  | "version" => .error (if value.isSome ∨ name.isSome then .usage else .version)
  | _ => .error .usage

/-- What short options do: all of them end the reading. -/
def shortStop (name : Option Name) : List Char → Stop
  | 'h' :: _ => .help
  | 'V' :: _ => if name.isSome then .usage else .version
  | _ => .usage

/-- One more operand of a request. -/
def Side.addOperand (side : Side) (name : Name) (operand : String) : Except Stop Side :=
  if name.acceptsOperand side.operands.length operand then
    .ok { side with operands := side.operands ++ [operand] }
  else .error .usage

/-- What is read after an option of which the value is still to come, if there is one. -/
abbrev Waiting := Option String

/-- What an argument that is an option does. -/
def Side.option (side : Side) (name : Option Name) (argument : String) :
    Except Stop (Side × Waiting) := do
  match argument.toList with
  | '-' :: '-' :: text =>
    let (option, value) := splitOption text
    if needsValue name option then
      match value with
      | some value => return (← side.setValue name option value, none)
      | none => return (side, some option)
    else return (← side.setPlain name option value, none)
  | _ :: text => .error (shortStop name text)
  | [] => .error .usage

/-- Reads the arguments after the name of a request. -/
def readRequest (name : Name) (side : Side) : Waiting → List String → Except Stop Side
  | none, [] => .ok side
  | some _, [] => .error .usage
  | some option, argument :: arguments => do
    if isOperand argument then
      readRequest name (← side.setValue (some name) option argument) none arguments
    else .error .usage
  | none, argument :: arguments => do
    if argument = "--" then
      arguments.foldlM (fun side operand => side.addOperand name operand) side
    else if isOperand argument then
      readRequest name (← side.addOperand name argument) none arguments
    else
      let (side, waiting) ← side.option (some name) argument
      readRequest name side waiting arguments

/-- The outcome of asking for help on the words after `help`. -/
def helpStop : List String → Stop
  | [] => .help
  | [word] => if word = "help" ∨ (Name.ofLabel? word).isSome then .help else .usage
  | _ => .usage

/-- Reads the arguments up to the name of a request, and those after it. -/
def readAll (side : Side) : Waiting → List String → Except Stop (Side × Name × Side)
  | _, [] => .error .usage
  | some option, argument :: arguments => do
    if isOperand argument then
      readAll (← side.setValue none option argument) none arguments
    else .error .usage
  | none, argument :: arguments => do
    if argument = "--" then .error .usage
    else if isOperand argument then
      match Name.ofLabel? argument with
      | some name => return (side, name, ← readRequest name .empty none arguments)
      | none => .error (if argument = "help" then helpStop arguments else .usage)
    else
      let (side, waiting) ← side.option none argument
      readAll side waiting arguments

/-- The request of a name with its operands. -/
def request? (name : Name) (side : Side) : Option Request :=
  match name, side.operands with
  | .compose, [plan] => some (.compose plan)
  | .term, text@(_ :: _) => some (.term text (side.own.bind Double.ofText?))
  | .qtext, text@(_ :: _) => some (.qtext text)
  | .constraint, constraint :: values => some (.constraint side.own constraint values)
  | .options, file :: constraint :: values => some (.options file constraint values)
  | _, _ => none

/-- The command line of a list of arguments. -/
def ofArguments (arguments : List String) : Except Stop Invocation := do
  let (before, name, after) ← readAll .empty none arguments
  match request? name after with
  | some request =>
    return {
      strict := before.strict || after.strict
      pretty := before.pretty || after.pretty
      config := after.config <|> before.config
      request }
  | none => .error .usage

end Invocation

end StructuredQuery
