import RefCheck.Check.Pass
import RefCheck.Log.Event

/-!
# Settings

Settings say what is logged where, and how a model is checked. Every one of them has a value also where
nothing is said about it.
-/

namespace RefCheck

open RefCheck.Log

/-- The forms in which events are written. -/
inductive LogFormat where
  /-- A JSON object for each event. -/
  | json
  /-- A line of text for each event. -/
  | console
  deriving DecidableEq, Repr, Inhabited

namespace LogFormat

/-- Every form. -/
def all : List LogFormat := [json, console]

/-- The name of a form in settings. -/
def name : LogFormat → String
  | json => "json"
  | console => "console"

/-- The form of this name. -/
def ofName? (s : String) : Option LogFormat := all.find? fun f => f.name == s

end LogFormat

/-- The destination that stands for the stream of errors. -/
def errorStream : String := "stderr"

/-- The destination that stands for the stream of results. -/
def resultStream : String := "stdout"

/-- One place to which events are written. -/
structure LogOutput where
  /-- The form. -/
  format : LogFormat
  /-- The name of a stream, or the path of a file. -/
  destination : String
  /-- The least level that is written; unset, it is the one of all outputs. -/
  level : Option Level
  deriving DecidableEq, Repr, Inhabited

namespace LogOutput

/-- Lines of text in the stream of errors. -/
def standard : LogOutput := ⟨.console, errorStream, none⟩

/-- The output is a stream and no file. -/
def isStream (o : LogOutput) : Bool :=
  o.destination == errorStream || o.destination == resultStream

/-- The output as a value. -/
def toValue (o : LogOutput) : Value :=
  .obj [("format", .str o.format.name), ("destination", .str o.destination),
    ("level", .ofText? (o.level.map Level.name))]

end LogOutput

/-- What is logged where. -/
structure LogSettings where
  /-- The least level. -/
  level : Level
  /-- The outputs. -/
  outputs : List LogOutput
  deriving DecidableEq, Repr, Inhabited

namespace LogSettings

/-- What happens, in the stream of errors. -/
def standard : LogSettings := ⟨.info, [.standard]⟩

/-- The settings as a value. -/
def toValue (s : LogSettings) : Value :=
  .obj [("level", .str s.level.name), ("outputs", .arr (s.outputs.map LogOutput.toValue))]

end LogSettings

/-- How a model is checked. -/
structure CheckSettings where
  /-- Any issue makes the pass fail. -/
  strict : Bool
  /-- The checks, each at most once and in their order. -/
  validators : List Check
  /-- The segments of paths whose declarations are left out. -/
  excludedPaths : List String
  deriving DecidableEq, Repr, Inhabited

namespace CheckSettings

/-- Every check, without strictness, over all but dependencies. -/
def standard : CheckSettings := ⟨false, Check.all, defaultExcluded⟩

/-- The names of the checks. -/
def validatorNames (s : CheckSettings) : List String := s.validators.map Check.name

/-- The plan of a pass with these settings. -/
def plan (s : CheckSettings) : Plan :=
  ⟨.bool s.strict, s.validatorNames.map .str, .ok s.excludedPaths⟩

/-- The settings as a value. -/
def toValue (s : CheckSettings) : Value :=
  .obj [("strict", .bool s.strict), ("validators", .arr (s.validatorNames.map .str)),
    ("excluded_paths", .arr (s.excludedPaths.map .str))]

end CheckSettings

/-- All settings. -/
structure Settings where
  /-- What is logged where. -/
  logging : LogSettings
  /-- How a model is checked. -/
  validation : CheckSettings
  deriving DecidableEq, Repr, Inhabited

namespace Settings

/-- What holds where nothing is said. -/
def standard : Settings := ⟨.standard, .standard⟩

/-- The settings as a value. -/
def toValue (s : Settings) : Value :=
  .obj [("logging", s.logging.toValue), ("validation", s.validation.toValue)]

end Settings

end RefCheck
