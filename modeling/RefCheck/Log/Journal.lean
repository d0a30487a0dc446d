import RefCheck.Disk
import RefCheck.Log.Line
import RefCheck.Log.Logged
import RefCheck.Settings.Basic

/-!
# Journals

A journal is what was written to outputs, line by line, and how it goes on. An event is written to every
output that asks for its level, as far as the least level lets it through at all. Without any output,
events from warnings up go to the stream of errors. Before there are settings, every event goes to the
stream of results. An event that cannot be written in columns is lost to an output that wants it so, and the
stream of errors is told that it is lost, whether it is an output or not; before there are settings, that is a
fault.

Events are told by loggers. A logger that is bound keeps from the settings of that moment which level it lets
through, and whether there are settings at all; new settings change its outputs but not that. A logger that is
not bound goes by the settings that there are when it tells something.

New settings replace all outputs; what the earlier ones got stays. The outputs are opened one after
another: where one cannot be opened, those before it are in place, and the settings count as made.

Events that happen while a pass is running belong to it.
-/

namespace RefCheck.Log

/-- Where lines go. -/
inductive Target where
  /-- The stream of results. -/
  | results
  /-- The stream of errors. -/
  | errors
  /-- The file of these names. -/
  | file (names : List String)
  deriving DecidableEq, Repr, Inhabited

/-- A line that was written. -/
structure Written where
  /-- Where it went. -/
  target : Target
  /-- The line. -/
  line : String
  deriving DecidableEq, Repr, Inhabited

/-- An open output. -/
structure Channel where
  /-- Where its lines go. -/
  target : Target
  /-- The form of its lines. -/
  format : LogFormat
  /-- The least level that it asks for. -/
  least : Level
  deriving DecidableEq, Repr, Inhabited

/-- What was written, and how it goes on. -/
structure Journal where
  /-- The least level, once there are settings. -/
  least : Option Level
  /-- The open outputs. -/
  channels : List Channel
  /-- The path of the log: the first file among the outputs. -/
  file? : Option String
  /-- The pass that is running. -/
  pass : Option Value
  /-- The lines, in order. -/
  written : List Written
  /-- The files that were opened, in order. -/
  opened : List (List String)
  /-- The disk with all that was made on it. -/
  disk : Disk
  deriving Inhabited, Repr

/-- The line of an event in a form. -/
def formLine (time : String) (e : Event) : LogFormat → String
  | .json => e.jsonLine time
  | .console => e.columnsLine .tight time

/-- The line of an event before there are settings, where no wish for a trace of calls is kept. -/
def earlyLine (time : String) (e : Event) : String :=
  (e.dropField stackWish).columnsLine .wide time

/-- How the report of an event begins that cannot be written. -/
def complaintLead : String := "--- Logging error ---"

/-- The report of an event that cannot be written. The calls that led to it, which it also tells, belong to the
running program and are left out. -/
def complaint (time : String) (e : Event) : String :=
  complaintLead ++ "\nMessage: " ++ e.bareLine time ++ "\nArguments: ()"

/-- What an output is told of an event. What cannot be written in columns makes a report in the stream of errors
instead. -/
def Channel.write (c : Channel) (time : String) (e : Event) : Written :=
  if c.format == .json || e.hasColumns then ⟨c.target, formLine time e c.format⟩
  else ⟨.errors, complaint time e⟩

/-- What tells events, and what it has kept of the settings. -/
structure Logger where
  /-- The least level that it lets through; without settings, it lets through all. -/
  least : Option Level
  deriving DecidableEq, Repr, Inhabited

/-- The lines that an event of a logger gives with a least level and some outputs. -/
def linesOf (l : Logger) (least : Option Level) (channels : List Channel) (time : String) (e : Event) :
    List Written :=
  match l.least with
  | none => if e.hasColumns then [⟨.results, earlyLine time e⟩] else []
  | some own =>
    if !(own.admits e.level && least.all fun least => least.admits e.level) then []
    else if channels.isEmpty then
      if Level.warning.admits e.level then [⟨.errors, e.bareLine time⟩] else []
    else (channels.filter fun c => c.least.admits e.level).map fun c => c.write time e

namespace Journal

/-- Nothing was written, and there are no settings yet. -/
def onDisk (disk : Disk) : Journal := ⟨none, [], none, none, [], [], disk⟩

/-! ## Settings -/

/-- Opens an output for events from a level up. -/
def openOutput (j : Journal) (least : Level) (o : LogOutput) : Journal × Option DiskFlaw :=
  let channel (target : Target) : Channel := ⟨target, o.format, o.level.getD least⟩
  if o.destination = errorStream then
    ({ j with channels := j.channels ++ [channel .errors] }, none)
  else if o.destination = resultStream then
    ({ j with channels := j.channels ++ [channel .results] }, none)
  else
    let j := { j with file? := j.file? <|> some o.destination }
    match j.disk.openLog (Path.ofString o.destination) with
    | (disk, .error f) => ({ j with disk }, some f)
    | (disk, .ok names) =>
      ({ j with
          disk
          channels := j.channels ++ [channel (.file names)]
          opened := j.opened ++ [names] }, none)

/-- Opens outputs up to the first that cannot be opened. -/
def openAll (j : Journal) (least : Level) : List LogOutput → Journal × Option DiskFlaw
  | [] => (j, none)
  | o :: rest =>
    match j.openOutput least o with
    | (j, none) => j.openAll least rest
    | stopped => stopped

/-- The journal with new settings, and why they are not all in place, if they are not. -/
def configure (j : Journal) (s : LogSettings) : Journal × Option DiskFlaw :=
  { j with least := some s.level, channels := [], file? := none }.openAll s.level s.outputs

/-! ## Events -/

/-- A pass starts. -/
def startPass (j : Journal) (id : Value) : Journal := { j with pass := some id }

/-- No pass is running any more. -/
def endPass (j : Journal) : Journal := { j with pass := none }

/-- The journal lets events of this level through. -/
def admits (j : Journal) (l : Level) : Bool := j.least.all fun least => least.admits l

/-- A logger that goes by the settings that there are. -/
def logger (j : Journal) : Logger := ⟨j.least⟩

/-- The fault of telling an event, if there is one. -/
def flaw? (l : Logger) (e : Event) : Option Fault :=
  if l.least.isNone && !e.hasColumns then some (.misshapen .lineNotText) else none

/-- The event as it happens now: a logger without settings knows no pass. -/
def place (j : Journal) (l : Logger) (e : Event) : Event :=
  { e with pass := l.least.bind fun _ => j.pass }

/-- The journal with an event of a logger. -/
def tellBy (j : Journal) (l : Logger) (time : String) (e : Event) : Journal :=
  { j with written := j.written ++ linesOf l j.least j.channels time (j.place l e) }

/-- The journal with an event. -/
def tell (j : Journal) (time : String) (e : Event) : Journal := j.tellBy j.logger time e

/-- The journal with several events. -/
def tellAll (j : Journal) (time : String) (es : List Event) : Journal :=
  es.foldl (fun j e => j.tell time e) j

/-- The journal after an act. -/
def act (time : String) (j : Journal) : Act → Journal
  | .startPass id => j.startPass id
  | .endPass => j.endPass
  | .tell e => j.tell time e

/-- The journal after several acts. -/
def actAll (j : Journal) (time : String) (acts : List Act) : Journal := acts.foldl (act time) j

/-- The lines that went somewhere. -/
def linesTo (j : Journal) (target : Target) : List String :=
  (j.written.filter fun w => w.target == target).map Written.line

end Journal

end RefCheck.Log
