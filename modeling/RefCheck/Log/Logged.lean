import RefCheck.Fault.Basic
import RefCheck.Log.Event

/-!
# Results with their events

An operation that may fail and that tells what it does gives a result, or a fault, and the events that
came before it in either case.

An operation that also says when a pass starts and when none is running any more gives acts in place of
events. What belongs to the pass can be read off them: the events between its start and its end.
-/

namespace RefCheck.Log

/-- A result, or a fault, with the events before it. -/
structure Logged (α : Type) where
  /-- What happened, in order. -/
  events : List Event
  /-- What came of it. -/
  result : Except Fault α

namespace Logged

variable {α β : Type}

/-- A result without events. -/
def ofResult (r : Except Fault α) : Logged α := ⟨[], r⟩

/-- An operation that goes on from a result; its events follow. -/
def andThen (a : Logged α) (next : α → Logged β) : Logged β :=
  match a.result with
  | .ok x => ⟨a.events ++ (next x).events, (next x).result⟩
  | .error f => ⟨a.events, .error f⟩

/-- One more event after a result; none after a fault. -/
def finish (a : Logged α) (event : α → Event) : Logged α :=
  match a.result with
  | .ok x => ⟨a.events ++ [event x], .ok x⟩
  | .error f => ⟨a.events, .error f⟩

end Logged

/-! ## Acts -/

/-- What an operation does to a log. -/
inductive Act where
  /-- A pass starts. -/
  | startPass (id : Value)
  /-- No pass is running any more. -/
  | endPass
  /-- Something happens. -/
  | tell (e : Event)
  deriving Inhabited, Repr

/-- The events of acts, from a point on where a pass is running or none. An event belongs to the pass that is
running when it happens. -/
def Act.eventsFrom (running : Option Value) : List Act → List Event
  | [] => []
  | .startPass id :: acts => eventsFrom (some id) acts
  | .endPass :: acts => eventsFrom none acts
  | .tell e :: acts => { e with pass := running } :: eventsFrom running acts

/-- A result, or a fault, with what was done to the log before it. -/
structure Recorded (α : Type) where
  /-- What was done, in order. -/
  acts : List Act
  /-- What came of it. -/
  result : Except Fault α

/-- What happened, in order. -/
def Recorded.events {α : Type} (r : Recorded α) : List Event := Act.eventsFrom none r.acts

end RefCheck.Log
