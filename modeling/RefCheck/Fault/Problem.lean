import RefCheck.Data.Display

/-!
# Problems

A *problem* is a failure that the program reports by itself: it has a code, a message and details that a
log can hold. Codes from 2000 concern settings, from 3000 the model, from 9000 the program. What is wrong
with the documentation is not a problem but the issue of a check.

Causes are constructors, and the wording is in `Problem.message`.
-/

namespace RefCheck

/-- What a problem is about. -/
inductive Family where
  /-- Anything. -/
  | general
  /-- Reading settings. -/
  | settings
  /-- Reading a model. -/
  | model
  /-- The program itself. -/
  | internal
  deriving DecidableEq, Repr, Inhabited

/-- The codes of problems. -/
inductive Code where
  /-- A settings file cannot be read. -/
  | settingsUnreadable
  /-- A setting has a value that it may not have. -/
  | settingInvalid
  /-- A model file cannot be read. -/
  | modelUnreadable
  /-- A node of the model lacks a field. -/
  | fieldMissing
  /-- There is no model file. -/
  | modelNotFound
  /-- A field of a node is no number. -/
  | fieldInvalid
  /-- Anything unexpected. -/
  | internal
  deriving DecidableEq, Repr, Inhabited

namespace Code

/-- Every code, in the order of their numbers. -/
def all : List Code :=
  [settingsUnreadable, settingInvalid, modelUnreadable, fieldMissing, modelNotFound, fieldInvalid,
    internal]

/-- The number of a code. -/
def number : Code → Nat
  | settingsUnreadable => 2001
  | settingInvalid => 2002
  | modelUnreadable => 3001
  | fieldMissing => 3002
  | modelNotFound => 3003
  | fieldInvalid => 3004
  | internal => 9001

/-- The name of a code. -/
def name : Code → String
  | settingsUnreadable => "CONFIG_PARSE_ERROR"
  | settingInvalid => "CONFIG_INVALID_VALUE"
  | modelUnreadable => "MODEL_PARSE_ERROR"
  | fieldMissing => "MODEL_MISSING_FIELD"
  | modelNotFound => "MODEL_FILE_NOT_FOUND"
  | fieldInvalid => "MODEL_INVALID_FIELD"
  | internal => "INTERNAL_ERROR"

/-- The code with this number. -/
def ofNumber? (n : Int) : Option Code := all.find? fun code => (code.number : Int) == n

/-- The code whose number a value is, in either form of numbers. -/
def ofValue? : Value → Option Code
  | .int n => ofNumber? n
  | .float x => x.whole?.bind ofNumber?
  | _ => none

theorem ofNumber?_number (code : Code) : ofNumber? code.number = some code := by
  cases code <;> decide

end Code

/-- A failure that the program reports by itself. What it is about is kept as it was given. -/
inductive Problem where
  /-- A settings file holds data of the wrong form. -/
  | settingsUnreadable (path reason : Value)
  /-- A settings file breaks the syntax of its format; the reader of the format gives the reason. -/
  | settingsMalformed (path reason : String)
  /-- A setting has a value that it may not have. -/
  | settingInvalid (field value reason : Value)
  /-- A model file cannot be read. -/
  | modelUnreadable (path reason : Value)
  /-- A node of the model lacks a field. -/
  | fieldMissing (field node : Value)
  /-- A field of a node is no number. -/
  | fieldInvalid (field node value : Value)
  /-- There is no model file. -/
  | modelNotFound (path : Value)
  /-- Anything unexpected. -/
  | unexpected (reason : Value) (details : List (String × Value))
  /-- A problem given in full. -/
  | stated (family : Family) (code : Code) (message retryable details : Value)
  deriving Inhabited, Repr

namespace Problem

/-- What the problem is about. -/
def family : Problem → Family
  | settingsUnreadable .. | settingsMalformed .. | settingInvalid .. => .settings
  | modelUnreadable .. | fieldMissing .. | fieldInvalid .. | modelNotFound .. => .model
  | unexpected .. => .internal
  | stated family .. => family

/-- The code of the problem. -/
def code : Problem → Code
  | settingsUnreadable .. | settingsMalformed .. => .settingsUnreadable
  | settingInvalid .. => .settingInvalid
  | modelUnreadable .. => .modelUnreadable
  | fieldMissing .. => .fieldMissing
  | fieldInvalid .. => .fieldInvalid
  | modelNotFound .. => .modelNotFound
  | unexpected .. => .internal
  | stated _ code .. => code

/-- The message about a settings file that cannot be read. -/
def settingsMessage (path reason : String) : String :=
  "Failed to parse config at " ++ path ++ ": " ++ reason

/-- The message of the problem. -/
def message : Problem → Value
  | settingsUnreadable path reason => .str (settingsMessage path.display reason.display)
  | settingsMalformed path reason => .str (settingsMessage path reason)
  | settingInvalid field _ reason =>
    .str ("Invalid value for '" ++ field.display ++ "': " ++ reason.display)
  | modelUnreadable path reason =>
    .str ("Failed to parse reflection model at " ++ path.display ++ ": " ++ reason.display)
  | fieldMissing field node =>
    .str ("Reflection " ++ node.display ++ " is missing required field '" ++ field.display ++ "'")
  | fieldInvalid field node value =>
    .str ("Reflection " ++ node.display ++ " has an invalid '" ++ field.display ++ "': " ++ value.quoted)
  | modelNotFound path => .str ("Reflection model not found: " ++ path.display)
  | unexpected reason _ => .str ("Internal error: " ++ reason.display)
  | stated _ _ message _ _ => message

/-- Whether the same request may succeed later. -/
def retryable : Problem → Value
  | stated _ _ _ retryable _ => retryable
  | _ => .bool false

/-- The details that a log holds. A value that is refused is shown, as it can be anything. -/
def details : Problem → Value
  | settingsUnreadable path reason | modelUnreadable path reason =>
    .obj [("path", path), ("reason", reason)]
  | settingsMalformed path reason => .obj [("path", .str path), ("reason", .str reason)]
  | settingInvalid field value reason =>
    .obj [("field", field), ("value", .str value.display), ("reason", reason)]
  | fieldMissing field node => .obj [("field", field), ("node", node)]
  | fieldInvalid field node value =>
    .obj [("field", field), ("node", node), ("value", .str value.display)]
  | modelNotFound path => .obj [("path", path)]
  | unexpected _ details => .obj details
  | stated _ _ _ _ details => details

/-- The problem in one line: code, name and message. -/
def text (p : Problem) : String :=
  "[" ++ toString p.code.number ++ "] " ++ p.code.name ++ ": " ++ p.message.display

/-- The fields of the problem's record. -/
def fields (p : Problem) : List (String × Value) :=
  [("code", .nat p.code.number), ("error", .str p.code.name), ("message", p.message),
    ("retryable", p.retryable), ("details", p.details)]

end Problem

end RefCheck
