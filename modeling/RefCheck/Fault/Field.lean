import RefCheck.Yaml.Data

/-!
# Errors of single settings

When settings are read from data, each value that its setting may not have gives one *field error*: where
the value stands, what is wrong with it, and the value itself.
-/

namespace RefCheck

/-- One step to a value: the name of a field or the position of an item. -/
inductive Place where
  /-- The field of this name. -/
  | field (name : String)
  /-- The item at this position. -/
  | item (position : Nat)
  deriving DecidableEq, Repr, Inhabited

/-- The text of a step. -/
def Place.text : Place → String
  | field name => name
  | item position => toString position

/-- What is wrong with the value of a setting. -/
inductive FieldFlaw where
  /-- A text or number that no truth value is written as. -/
  | unreadTruth
  /-- Neither a truth value nor anything that one is written as. -/
  | notTruth
  /-- Not a text. -/
  | notText
  /-- Bytes that are no text. -/
  | unreadText
  /-- Not a list. -/
  | notList
  /-- None of the values that are allowed. -/
  | notAmong (choices : List String)
  /-- Not an object, where the section of this name is read. -/
  | notSection (name : String)
  /-- Refused for a reason of its own. -/
  | refused (reason : String)
  /-- No setting of this name. -/
  | unknown
  deriving DecidableEq, Repr, Inhabited

namespace FieldFlaw

/-- The kind of the flaw. -/
def kind : FieldFlaw → String
  | unreadTruth => "bool_parsing"
  | notTruth => "bool_type"
  | notText => "string_type"
  | unreadText => "string_unicode"
  | notList => "list_type"
  | notAmong _ => "literal_error"
  | notSection _ => "model_type"
  | refused _ => "value_error"
  | unknown => "extra_forbidden"

/-- Choices as a list in words: each between quotation marks, the last after "or". -/
def choicesText : List String → String
  | [] => ""
  | [a] => "'" ++ a ++ "'"
  | [a, b] => "'" ++ a ++ "' or '" ++ b ++ "'"
  | a :: rest => "'" ++ a ++ "', " ++ choicesText rest

/-- The message of the flaw. -/
def message : FieldFlaw → String
  | unreadTruth => "Input should be a valid boolean, unable to interpret input"
  | notTruth => "Input should be a valid boolean"
  | notText => "Input should be a valid string"
  | unreadText => "Input should be a valid string, unable to parse raw data as a unicode string"
  | notList => "Input should be a valid list"
  | notAmong choices => "Input should be " ++ choicesText choices
  | notSection name => "Input should be a valid dictionary or instance of " ++ name
  | refused reason => "Value error, " ++ reason
  | unknown => "Extra inputs are not permitted"

end FieldFlaw

/-- A value that its setting may not have. -/
structure FieldError where
  /-- Where the value stands, from the outermost step. -/
  path : List Place
  /-- What is wrong with it. -/
  flaw : FieldFlaw
  /-- The value. -/
  value : Yaml.Data
  deriving Inhabited, Repr

namespace FieldError

/-- The error seen from one step further out. -/
def under (step : Place) (e : FieldError) : FieldError := { e with path := step :: e.path }

/-- The steps with points between them. -/
def pathText (e : FieldError) : String := ".".intercalate (e.path.map Place.text)

end FieldError

end RefCheck
