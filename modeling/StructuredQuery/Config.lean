import StructuredQuery.Record
import StructuredQuery.Text.Blank
import StructuredQuery.Text.UpperCase

/-!
# Configurations

A configuration says, for shapes and for labels, whether a case that has a silent
default takes it or is refused.  It is read from JSON, and a setting of the environment
can make all of it strict.
-/

namespace StructuredQuery

/-- What is done where there is a silent default. -/
inductive Mode where
  /-- The default is taken. -/
  | permissive
  /-- The case is refused. -/
  | strict
  deriving DecidableEq, Repr

namespace Mode

/-- Both modes. -/
def all : List Mode :=
  [permissive, strict]

/-- The name of a mode. -/
def label : Mode → String
  | permissive => "permissive"
  | strict => "strict"

/-- The mode with a name. -/
def ofLabel? (label : String) : Option Mode :=
  all.find? (·.label = label)

/-- Reads a mode: its name, or an object with its name over null. -/
def read (room : Nat) (doc : Doc) : Read Mode :=
  doc.readLabelled room (all.map label) ofLabel?
    (fun mode doc => (fun _ => mode) <$> doc.readNull) .ok

end Mode

/-- Which defaults are taken. -/
structure Config where
  /-- For shapes that show no kind. -/
  shapes : Mode
  /-- For labels that are not known and terms that have no type. -/
  labels : Mode
  deriving DecidableEq

namespace Config

/-- The configuration that takes every default. -/
def permissive : Config :=
  ⟨.permissive, .permissive⟩

/-- The configuration that takes no default. -/
def strict : Config :=
  ⟨.strict, .strict⟩

/-- A configuration in JSON. -/
def encode (config : Config) : Json :=
  .object [("shape_mode", .string config.shapes.label),
    ("label_mode", .string config.labels.label)]

/-- Reads a configuration; a mode that is not there is permissive. -/
def read (room : Nat) (doc : Doc) : Read Config :=
  (fun (shapes, labels, _) => ⟨shapes, labels⟩) <$>
    (Fields.orElse "shape_mode" (Mode.read (room - 1)) .permissive
      (.orElse "label_mode" (Mode.read (room - 1)) .permissive .done)).read
        .text "struct BuilderConfig" room doc

/-- Reads the text of a configuration. -/
def ofText (text : String) : Read Config :=
  (Document.ofText text).read (read fullRoom)

/-- A setting of the environment that asks for strictness. -/
def asksForStrict (setting : String) : Bool :=
  let text := Text.lowerLetters (Text.trim setting.toList)
  text = ['1'] || text = ['t', 'r', 'u', 'e']

/-- The configuration under a setting of the environment. -/
def override (config : Config) (setting : Option String) : Config :=
  if setting.any asksForStrict then strict else config

end Config

end StructuredQuery
