import RefCheck.Data.Value

/-!
# Events

What the program does is told by *events*: a text, a level, and named values. During a pass over a model
an event also belongs to that pass. Whoever tells an event may give any value in place of the text, and
none at all; the same holds for what identifies a pass.
-/

namespace RefCheck.Log

/-- The levels of events, from the least. -/
inductive Level where
  /-- For whoever looks for a mistake in the program. -/
  | debug
  /-- What happened. -/
  | info
  /-- What the documentation gets wrong. -/
  | warning
  /-- What makes the run fail. -/
  | error
  /-- What stops the program. -/
  | critical
  deriving DecidableEq, Repr, Inhabited

namespace Level

/-- Every level, from the least. -/
def all : List Level := [debug, info, warning, error, critical]

/-- The place of a level in their order. -/
def rank : Level → Nat
  | debug => 10
  | info => 20
  | warning => 30
  | error => 40
  | critical => 50

/-- The name of a level in settings. -/
def name : Level → String
  | debug => "DEBUG"
  | info => "INFO"
  | warning => "WARNING"
  | error => "ERROR"
  | critical => "CRITICAL"

/-- The name of a level in a log. -/
def logName : Level → String
  | debug => "debug"
  | info => "info"
  | warning => "warning"
  | error => "error"
  | critical => "critical"

/-- The level of this name in settings. -/
def ofName? (name : String) : Option Level := all.find? fun l => l.name == name

/-- The words by which an event of a level can be told. -/
def words : List (String × Level) :=
  [("debug", debug), ("info", info), ("msg", info), ("warning", warning), ("warn", warning),
    ("error", error), ("exception", error), ("critical", critical), ("fatal", critical)]

/-- An event of level `l` is let through where `least` is asked for. -/
def admits (least l : Level) : Bool := least.rank ≤ l.rank

end Level

/-- Something that happened. -/
structure Event where
  /-- How much it matters. -/
  level : Level
  /-- What happened. -/
  text : Value
  /-- Named values, in order. -/
  fields : List (String × Value)
  /-- The pass during which it happened. -/
  pass : Option Value
  deriving Inhabited, Repr

namespace Event

/-- An event of the least level, outside any pass. -/
def debug (text : String) (fields : List (String × Value)) : Event :=
  ⟨.debug, .str text, fields, none⟩

/-- An event that tells what happened, outside any pass. -/
def info (text : String) (fields : List (String × Value)) : Event :=
  ⟨.info, .str text, fields, none⟩

end Event

end RefCheck.Log
