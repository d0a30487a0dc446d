import RefCheck.Data.Display
import RefCheck.Data.Writer
import RefCheck.Log.Event
import RefCheck.Text.Blank

/-!
# Events as lines

An event is written in one of several forms, all of which show the time, which the event itself does not
know.

* As *JSON*, an object: the named values, the text, the level, the time, and the pass if there is one.
* In *columns*, for people: time, level in brackets, text, names of loggers in brackets, then the other
  values as `key=value` in the order of their keys. A text stands bare unless that could be misread. A
  trace of calls and the text of a failure follow on lines of their own, and have to be texts. Columns may
  be padded.
* *Bare*, where no output is set: the same record as a value in a message.
-/

namespace RefCheck.Log

/-- The name under which an event holds the name of its logger. -/
def loggerKey : String := "logger"

/-- The name under which an event holds a trace of calls. -/
def stackKey : String := "stack"

/-- The name under which an event holds the text of a failure. -/
def exceptionKey : String := "exception"

/-- The name under which an event says that there is a failure to tell. -/
def failureKey : String := "exc_info"

/-- The name under which an event asks for a trace of calls. -/
def stackWish : String := "stack_info"

/-- How wide the columns of a line are at least. -/
structure Columns where
  /-- The width of the level. -/
  level : Nat
  /-- The width of the text. -/
  text : Nat
  deriving DecidableEq, Repr, Inhabited

namespace Columns

/-- No column is padded. -/
def tight : Columns := ⟨0, 0⟩

/-- Every level and most texts take the same room. -/
def wide : Columns := ⟨9, 30⟩

end Columns

namespace Event

/-- The event of a logger with a name. -/
def boundTo (name : Value) (e : Event) : Event :=
  { e with fields := e.fields.foldl (fun fs f => Value.setField f.1 f.2 fs) [(loggerKey, name)] }

/-- The event without a field. -/
def dropField (key : String) (e : Event) : Event :=
  { e with fields := e.fields.filter fun f => f.1 != key }

/-- The named values with the text of the event among them, if there is one. -/
def told (e : Event) : List (String × Value) :=
  match e.text with
  | .null => e.fields
  | text => Value.setField "event" text e.fields

/-- All that an event says, at a time. -/
def record (time : String) (e : Event) : List (String × Value) :=
  let fields := Value.setField "timestamp" (.str time)
    (Value.setField "level" (.str e.level.logName) e.told)
  match e.pass with
  | some id => Value.setField "run_id" id fields
  | none => fields

/-- The event as JSON. -/
def jsonLine (time : String) (e : Event) : String := Json.compact (.obj (e.record time))

/-- The event as a value in a message. -/
def bareLine (time : String) (e : Event) : String := (Value.obj (e.record time)).quoted

/-! ## Columns -/

/-- A text that holds this character is quoted. -/
def needsQuotes (c : Char) : Bool :=
  c == ' ' || c == '\t' || c == '=' || c == '\r' || c == '\n' || c == '\x22' || c == '\x27'

/-- A value after its key. -/
def columnValue : Value → String
  | .str s => if s.toList.any needsQuotes then Text.quoted s else s
  | v => v.quoted

/-- A key with its value. -/
def keyColumn (key : String) (v : Value) : String := key ++ "=" ++ columnValue v

/-- A text with spaces after it up to a width. -/
def padTo (width : Nat) (s : String) : String := s.pushn ' ' (width - s.length)

/-- A value between brackets. -/
def bracketed (width : Nat) (v : Value) : String := "[" ++ padTo width v.display ++ "]"

/-- The columns with a place of their own: the key of each and its form. The nameless one comes first. -/
def placedColumns (c : Columns) : List (String × (Value → String)) :=
  [("", keyColumn ""), ("timestamp", Value.display), ("level", bracketed c.level),
    ("event", fun v => padTo c.text v.display), (loggerKey, bracketed 0), ("logger_name", bracketed 0)]

/-- The fields that are written on lines of their own, or not at all. -/
def apartKeys : List String := [stackKey, exceptionKey, failureKey]

/-- The fields without a place of their own, in the order of their names. -/
def otherFields (fields : List (String × Value)) : List (String × Value) :=
  let placed := (placedColumns .tight).map Prod.fst ++ apartKeys
  (fields.filter fun f => !placed.contains f.1).mergeSort fun a b => !decide (b.1 < a.1)

/-- The first line of an event in columns. -/
def columnsOf (c : Columns) (fields : List (String × Value)) : String :=
  let placed := (placedColumns c).filterMap fun column => (fields.lookup column.1).map column.2
  let others := (otherFields fields).map fun f => keyColumn f.1 f.2
  let line := " ".intercalate ((placed ++ others).filter (· != ""))
  String.ofList (line.toList.reverse.dropWhile (· == ' ')).reverse

/-- The value of a field, unless it is null. -/
def given? (fields : List (String × Value)) (key : String) : Option Value :=
  match fields.lookup key with
  | some .null | none => none
  | some v => some v

/-- The line between a trace of calls and what follows it. -/
def separator : String := "\n\n" ++ "".pushn '=' 79 ++ "\n"

/-- The lines after the first one: a trace of calls, and the text of a failure. -/
def linesApart (fields : List (String × Value)) : String :=
  let exception := given? fields exceptionKey
  let failure := exception.isSome || ((fields.lookup failureKey).getD .null).truthy
  let stack :=
    match given? fields stackKey with
    | some v => "\n" ++ v.display ++ if failure then separator else ""
    | none => ""
  stack ++
    match exception with
    | some v => "\n" ++ v.display
    | none => ""

/-- What follows on lines of its own is text, so that the event can be written in columns. -/
def hasColumns (e : Event) : Bool :=
  [stackKey, exceptionKey].all fun key => (given? e.fields key).all fun v => v.text?.isSome

/-- The event in columns. -/
def columnsLine (c : Columns) (time : String) (e : Event) : String :=
  let fields := e.record time
  columnsOf c fields ++ linesApart fields

end Event

end RefCheck.Log
