import RefCheck.Cli.Arguments
import RefCheck.Disk

/-!
# What a call asks for

A call asks for a text to be shown, or for a model to be checked. Options are tried in the order in which
they are given, then the file, then whether anything is left over; the first mistake counts. Help and
version come before all of these, but after mistakes in the form of options.

A path that cannot be asked about at all is no mistake in the call but a fault.
-/

namespace RefCheck.Cli

/-- A model to be checked. -/
structure Request where
  /-- Log all that happens. -/
  verbose : Bool
  /-- The path of the model file. -/
  project : String
  /-- Let any issue fail the run. -/
  strict : Bool
  /-- The checks to run, if not those of the settings. -/
  only : List String
  /-- Show the report as JSON. -/
  asJson : Bool
  /-- Where the settings of the project are, if not in the directory of the caller. -/
  configDir : Option String
  deriving DecidableEq, Repr, Inhabited

/-- Why a call makes no request. -/
inductive Refusal where
  /-- The call is wrong. -/
  | misuse (m : Misuse)
  /-- What the call names cannot be looked for. -/
  | fault (f : Fault)
  deriving Inhabited, Repr

/-- What a call asks for. -/
inductive Call where
  /-- A text as result. -/
  | shown (text : String)
  /-- The call was wrong; this text tells why. -/
  | refused (text : String)
  /-- A fault ended the reading of the call. -/
  | stopped (f : Fault)
  /-- A model is to be checked. -/
  | request (r : Request)
  deriving Inhabited, Repr

/-- Where paths are looked for. -/
structure Surroundings where
  /-- The disk. -/
  disk : Disk
  /-- The names of the directory in which relative paths start. -/
  here : List String
  deriving Inhabited, Repr

namespace Call

/-- Checks that a path leads to what is wanted. -/
def checkPath (s : Surroundings) (parameter : String) (wanted : Wanted) (path : String) :
    Except Refusal Unit :=
  match s.disk.find s.here path, wanted with
  | .error .holdsNull, _ => .error (.fault (.disk .holdsNull))
  | .error _, _ => .error (.misuse (.absent parameter wanted path))
  | .ok .directory, .file => .error (.misuse (.otherKind parameter wanted path))
  | .ok (.file _), .directory => .error (.misuse (.otherKind parameter wanted path))
  | .ok _, _ => .ok ()

/-- Checks the values of an option. Of a directory only the last value counts. -/
def checkOption (s : Surroundings) (a : Arguments) : Switch → Except Refusal Unit
  | .only =>
    match (a.values .only).find? fun v => !Check.names.contains v with
    | some v => .error (.misuse (.notAmong Switch.only.name v Check.names))
    | none => .ok ()
  | .configDir =>
    match (a.values .configDir).getLast? with
    | some v => checkPath s Switch.configDir.name .directory v
    | none => .ok ()
  | _ => .ok ()

/-- The request that the arguments of the command make. -/
def requestOf (s : Surroundings) (verbose : Bool) (a : Arguments) : Except Refusal Request := do
  a.given.forM (checkOption s a)
  match a.words with
  | [] => .error (.misuse (.argumentMissing projectArgument))
  | project :: extra =>
    checkPath s projectArgument .file project
    if extra.isEmpty then
      return { verbose, project, strict := a.has .strict, only := a.values .only
               asJson := a.has .json, configDir := (a.values .configDir).getLast? }
    else .error (.misuse (.argumentsExtra extra))

/-- What the arguments after the name of the command ask for. -/
def ofCommand (s : Surroundings) (verbose : Bool) (args : List String) : Call :=
  match Arguments.ofList .validate args with
  | .error m => .refused (m.text .validate)
  | .ok a =>
    if a.has .help then .shown (Scope.help .validate)
    else
      match requestOf s verbose a with
      | .error (.misuse m) => .refused (m.text .validate)
      | .error (.fault f) => .stopped f
      | .ok r => .request r

/-- The text that the program itself shows if an option asks for it: the first one counts. -/
def shownText? (a : Arguments) : Option String :=
  a.given.findSome? fun s =>
    match s with
    | .help => some (Scope.help .program)
    | .version => some versionText
    | _ => none

/-- The name of a command that there is not. It is first read as an option once more if it looks like
one. -/
def ofUnknownCommand (name : String) (rest : List String) : Call :=
  let unknown : Misuse := .noSuchCommand name (Text.closeWords name [validateName])
  if Arguments.isOption name then
    match Arguments.ofList .program (name :: rest) with
    | .error m => .refused (m.text .program)
    | .ok a =>
      match shownText? a with
      | some text => .shown text
      | none => .refused (unknown.text .program)
  else .refused (unknown.text .program)

/-- What a call asks for. Without any argument help is shown, but the call counts as wrong. -/
def ofArguments (s : Surroundings) (args : List String) : Call :=
  if args.isEmpty then .refused (Scope.help .program)
  else
    match Arguments.ofList .program args with
    | .error m => .refused (m.text .program)
    | .ok a =>
      match shownText? a, a.words with
      | some text, _ => .shown text
      | none, [] => .refused (Misuse.noCommand.text .program)
      | none, name :: rest =>
        if name = validateName then ofCommand s (a.has .verbose) rest
        else ofUnknownCommand name rest

end Call

end RefCheck.Cli
