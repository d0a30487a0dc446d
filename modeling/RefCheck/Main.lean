import RefCheck.Cli.Run
import Std.Time.DateTime

/-!
# The program

All rules of a run are those of `Cli.run`. Here its world is looked up before it, and what came of it is
written after it.

A run asks the disk for few paths. Those of the model and of settings can be told from its arguments, and
those of logs from the settings, so the disk is looked up along these and nowhere else.
-/

namespace RefCheck.Program

open RefCheck.Cli RefCheck.Log

/-! ## The disk -/

/-- The text after the first equals sign, if there is one. -/
def gluedValue? (argument : String) : Option String :=
  match argument.toList.dropWhile (· != '=') with
  | [] => none
  | _ :: value => some (String.ofList value)

/-- The path of the settings file in a directory. -/
def settingsPath (directory : String) : String :=
  ((Path.ofString directory).join (Path.ofString Settings.projectFileName)).text

/-- The paths that a run asks for because of its arguments. -/
def pathsOf (args : List String) (directory userFile : String) : List String :=
  let named := args ++ args.filterMap gluedValue?
  userFile :: settingsPath directory ::
    named.flatMap fun path => [path, (Path.ofString path).text, settingsPath path]

/-- What is at a path where something is. A directory is what holds itself, as a point. -/
def entryAt (path : String) : IO Entry := do
  try
    discard (IO.FS.realPath (path ++ "/."))
    return .directory
  catch _ =>
    try
      return .file (← IO.FS.readBinFile path).toList
    catch _ => return .file []

/-- The names of what is at a path when all links are followed, if anything is there. -/
def realNames? (path : String) : IO (Option (List String)) := do
  try
    let real ← IO.FS.realPath path
    return some ((Disk.pathNames real.toString).filter (· != ""))
  catch _ => return none

/-- The disk with what is found along a way. -/
def lookAlong (d : Disk) (here : List String) : List String → IO Disk
  | [] => return d
  | name :: rest => do
    match d.step here name with
    | .error _ => return d
    | .ok there =>
      if there.length ≤ here.length then lookAlong d there rest
      else
        match ← realNames? (Disk.pathText there) with
        | none => return d
        | some real =>
          let d := d.put real (← entryAt (Disk.pathText real))
          lookAlong (if real = there then d else d.put there (.link real)) real rest

/-- The disk with what is found along the way to a directory and then along paths. -/
def lookAt (d : Disk) (directory : String) (paths : List String) : IO Disk := do
  let here := (Path.ofString directory).names
  let d ← lookAlong d [] here
  paths.eraseDups.foldlM (fun d path => lookAlong d (Disk.startOf here path) (Disk.pathNames path)) d

/-! ## The environment, accounts, time -/

/-- The text of a file; nothing if it cannot be read. -/
def textOf (path : String) : IO String := do
  try
    return (String.fromUTF8? (← IO.FS.readBinFile path)).getD ""
  catch _ => return ""

/-- The variable that a text of the form `NAME=value` sets. -/
def variableOf (text : String) : String × String :=
  (String.ofList (text.toList.takeWhile (· != '=')), (gluedValue? text).getD "")

/-- The variables of the environment. -/
def environment : IO Environment := do
  let text ← textOf "/proc/self/environ"
  return ((text.splitOn "\x00").filter (· != "")).map variableOf

/-- The account that a line of the list of accounts describes, and its home directory. -/
def accountOf? (line : String) : Option (String × String) :=
  match line.splitOn ":" with
  | [name, _, _, _, _, home, _] => some (name, home)
  | _ => none

/-- The home directories. -/
def homes (env : Environment) : IO Homes := do
  let accounts ← textOf "/etc/passwd"
  return ⟨(env.lookup "HOME").getD "/", (accounts.splitOn "\n").filterMap accountOf?⟩

/-- A number with as many digits as asked for. -/
def padded (width : Nat) (n : Int) : String :=
  let digits := toString n
  "".pushn '0' (width - digits.length) ++ digits

/-- The present time, by the clock of Greenwich. -/
def now : IO String := do
  let t := Std.Time.PlainDateTime.ofWallTime ((← Std.Time.Timestamp.now).toWallTime ⟨0⟩)
  let date := "-".intercalate
    [padded 4 t.date.year.toInt, padded 2 t.date.month.val, padded 2 t.date.day.val]
  let hour := ":".intercalate
    [padded 2 t.time.hour.val, padded 2 t.time.minute.val, padded 2 t.time.second.val]
  return date ++ " " ++ hour

/-- An identifier for a pass: twelve hexadecimal digits. -/
def freshPass : IO String := do
  let digits ← (List.range 12).mapM fun _ => do return Nat.digitChar (← IO.rand 0 15)
  return String.ofList digits

/-! ## A run -/

/-- What is said of settings that break the syntax of their format: this program reads the format itself, and has
the same words for every such file. -/
def complaint (_ : String) : String := "malformed"

/-- What a run finds. Its pass takes no time yet. -/
def worldOf (args : List String) : IO World := do
  let directory := (← IO.currentDir).toString
  let environment ← environment
  let homes ← homes environment
  let userFile :=
    match (Path.ofString Settings.userFileName).expandHome homes with
    | .ok path => path.text
    | .error _ => Settings.userFileName
  let w : World := {
    disk := ← lookAt ⟨[]⟩ directory (pathsOf args directory userFile)
    directory
    environment
    homes
    userFile
    complaint
    time := ← now
    pass := ← freshPass
    duration := .finite false 0 Binary64.minExponent }
  return { w with disk := ← lookAt w.disk directory (logFiles w args) }

/-- The number of seconds in a number of nanoseconds. -/
def seconds (nanoseconds : Nat) : Binary64 := Binary64.ofDecimal false nanoseconds (-9)

/-- A run that tells how long it takes: it is carried out once to be timed, and the outcome is that of a run
that knows the time. -/
def timedRun (w : World) (args : List String) : IO Outcome := do
  let start ← IO.monoNanosNow
  let untimed ← IO.wait (Task.spawn fun _ => run w args)
  let stop ← IO.monoNanosNow
  if untimed.crash.isSome then return untimed
  return run { w with duration := seconds (stop - start) } args

/-- Adds to the files of a log what was written to them. -/
def keepLog (j : Journal) : IO Unit :=
  j.opened.eraseDups.forM fun names => do
    IO.FS.createDirAll (Disk.pathText names.dropLast)
    let file ← IO.FS.Handle.mk (Disk.pathText names) .append
    (j.linesTo (.file names)).forM file.putStrLn

/-- Runs the program and gives its exit code. -/
def runHere (args : List String) : IO UInt32 := do
  let outcome ← timedRun (← worldOf args) args
  keepLog outcome.journal
  (← IO.getStdout).putStr outcome.output
  (← IO.getStderr).putStr outcome.errors
  return outcome.exit.toUInt32

end RefCheck.Program

/-- The program: checks the references in a model. -/
def main (args : List String) : IO UInt32 := RefCheck.Program.runHere args
