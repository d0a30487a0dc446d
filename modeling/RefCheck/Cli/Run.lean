import RefCheck.Cli.Request
import RefCheck.Log.Journal
import RefCheck.Model.OfFile
import RefCheck.Settings.Sources
import RefCheck.Text.Colour

/-!
# Running the program

A run reads settings, lays the options of the call over them, reads the model and checks it. It shows every
issue and a summary, or the report as JSON, and fails if the pass does. A problem makes it fail too, with
its text and, where there is one, the path of the log.

A run is a function of what it finds: the disk, the environment, the time. What it writes is in its
outcome.
-/

namespace RefCheck.Cli

open RefCheck.Log RefCheck.Yaml

/-- What a run finds. -/
structure World where
  /-- The disk. -/
  disk : Disk
  /-- The directory of the caller. -/
  directory : String
  /-- The environment. -/
  environment : Environment
  /-- The home directories. -/
  homes : Homes
  /-- The path of the settings of the user. -/
  userFile : String
  /-- What the reader of their format says of the settings at a path, if they break the syntax. -/
  complaint : String → String
  /-- The time that a log shows. -/
  time : String
  /-- The identifier of a pass. -/
  pass : String
  /-- How long a pass takes, in seconds. -/
  duration : Binary64

/-- Where paths are looked for. -/
def World.surroundings (w : World) : Surroundings := ⟨w.disk, (Path.ofString w.directory).names⟩

/-- What came of a run. -/
structure Outcome where
  /-- The exit code. -/
  exit : Nat
  /-- The text among the results, after the log. -/
  out : String
  /-- The text among the errors, after the log. -/
  err : String
  /-- The fault that ended the run, if it is no problem. -/
  crash : Option Fault
  /-- What was logged. -/
  journal : Journal
  deriving Inhabited

namespace Outcome

/-- The exit code of a call that is wrong. -/
def misuseExit : Nat := 2

/-- A text as result. -/
def shown (text : String) (j : Journal) : Outcome := ⟨0, text, "", none, j⟩

/-- A text that tells what is wrong with a call. -/
def refused (text : String) (j : Journal) : Outcome := ⟨misuseExit, "", text, none, j⟩

/-- A problem with a text. -/
def failed (text : String) (j : Journal) : Outcome := ⟨1, "", "Error: " ++ text ++ "\n", none, j⟩

/-- A fault that is no problem. -/
def crashed (f : Fault) (j : Journal) : Outcome := ⟨1, "", "", some f, j⟩

/-- A text for readers other than terminals. -/
def plain (text : String) : String := String.ofList (Text.dropColours text.toList)

/-- All that went to the results; only a log keeps colours. -/
def output (o : Outcome) : String :=
  String.join ((o.journal.linesTo .results).map (· ++ "\n")) ++ plain o.out

/-- All that went to the errors; only a log keeps colours. -/
def errors (o : Outcome) : String :=
  String.join ((o.journal.linesTo .errors).map (· ++ "\n")) ++ plain o.err

end Outcome

/-- A settings file of a run. -/
def World.settingsFile (w : World) (path : String) : Settings.File :=
  ⟨path, (w.disk.find w.surroundings.here path).toOption, w.complaint path⟩

/-- Where the settings of a run come from. -/
def sources (w : World) (r : Request) : Settings.Sources :=
  let directory := Path.ofString (r.configDir.getD w.directory)
  { userFile := w.settingsFile w.userFile
    projectFile := w.settingsFile (directory.join (Path.ofString Settings.projectFileName)).text
    environment := w.environment
    given := []
    homes := w.homes }

/-- What the options of a call say of checks. -/
def Request.overrides (r : Request) : List (Scalar × Data) :=
  (if r.strict then [(.str "strict", .scalar (.bool true))] else []) ++
    (if r.only.isEmpty then [] else [(.str "validators", .list (r.only.map Data.str))])

/-- Check settings with the options of a call laid over them. If there are any, the settings are read once more;
an error in them is then no problem that is told. -/
def Request.adjustChecks (r : Request) (s : CheckSettings) : Except Fault CheckSettings :=
  if r.overrides.isEmpty then .ok s
  else (Settings.readValidation (.overlay (.ofValue s.toValue) (.map r.overrides))).toExcept

/-- Settings with the options of a call laid over them. -/
def Request.adjust (r : Request) (s : Settings) : Except Fault Settings := do
  let validation ← r.adjustChecks s.validation
  return { logging := if r.verbose then { s.logging with level := .debug } else s.logging, validation }

/-- The event that tells a problem. -/
def problemEvent (p : Problem) : Event :=
  (⟨.error, .str "validate_failed", p.fields, none⟩ : Event).boundTo (.str "cli")

/-- The outcome of a problem that comes after the log was set up. -/
def failLogged (w : World) (j : Journal) (p : Problem) : Outcome :=
  let j := j.tell w.time (problemEvent p)
  .failed (p.text ++ match j.file? with
    | some path => ". See " ++ path ++ " for details."
    | none => "") j

/-- The outcome of a fault that comes after the log was set up. -/
def stopLogged (w : World) (j : Journal) : Fault → Outcome
  | .problem p => failLogged w j p
  | f => .crashed f j

/-- The text of a report. -/
def reportText (m : Model) (asJson : Bool) (report : Report) : String :=
  if asJson then Json.indented (report.toValue m) ++ "\n"
  else String.join ((report.issues.map (Issue.text m) ++ [report.summary]).map (· ++ "\n"))

/-- Checks a model with check settings while a journal is kept. -/
def checkModel (w : World) (r : Request) (s : CheckSettings) (j : Journal) : Outcome :=
  let path := (Path.ofString r.project).text
  let loaded := Model.ofFile path (w.disk.bytes? w.surroundings.here path)
  let j := j.tellAll w.time loaded.events
  match loaded.result with
  | .error f => stopLogged w j f
  | .ok m =>
    let checked := Pass.run m s.plan w.pass w.duration
    let j := j.actAll w.time checked.acts
    match checked.result with
    | .error f => stopLogged w j f
    | .ok report => ⟨if report.failed then 1 else 0, reportText m r.asJson report, "", none, j⟩

/-- Checks a model with settings. -/
def runWith (w : World) (r : Request) (s : Settings) (j : Journal) : Outcome :=
  match j.configure s.logging with
  | (j, none) => checkModel w r s.validation j
  | (j, some f) => .crashed (.disk f) j

/-- Checks a model. -/
def Request.run (r : Request) (w : World) (j : Journal) : Outcome :=
  match Settings.load (sources w r) >>= r.adjust with
  | .error (.problem p) => .failed p.text j
  | .error f => .crashed f j
  | .ok s => runWith w r s j

/-- The files that a run may log to, as far as it can be told before the run. -/
def logFiles (w : World) (args : List String) : List String :=
  match Call.ofArguments w.surroundings args with
  | .request r =>
    match Settings.load (sources w r) with
    | .ok s => (s.logging.outputs.filter fun o => !o.isStream).map LogOutput.destination
    | .error _ => []
  | _ => []

/-- A run of the program. -/
def run (w : World) (args : List String) : Outcome :=
  let j := Journal.onDisk w.disk
  match Call.ofArguments w.surroundings args with
  | .shown text => .shown text j
  | .refused text => .refused text j
  | .stopped f => .crashed f j
  | .request r => r.run w j

end RefCheck.Cli
