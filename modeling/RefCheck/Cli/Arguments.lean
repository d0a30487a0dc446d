import RefCheck.Cli.Usage
import RefCheck.Text.Similar
import RefCheck.Text.Split

/-!
# Options and words

The arguments of a call are options and words. A long option starts with two hyphens; its value follows
after an equals sign or as the next argument. Short options start with one hyphen, and several may follow
it. A single hyphen is a word, and after two hyphens alone all arguments are words.

For the program itself the first word ends the options, as it names the command; for the command, options
and words may be mixed.
-/

namespace RefCheck.Cli

open RefCheck.Text

/-- The options. -/
inductive Switch where
  /-- Shows the version. -/
  | version
  /-- Logs all that happens. -/
  | verbose
  /-- Makes any issue fail the run. -/
  | strict
  /-- Runs a check of this name only. -/
  | only
  /-- Shows the report as JSON. -/
  | json
  /-- Says where the settings of the project are. -/
  | configDir
  /-- Shows help. -/
  | help
  deriving DecidableEq, Repr, Inhabited

namespace Switch

/-- The long name. -/
def name : Switch → String
  | version => "--version"
  | verbose => "--verbose"
  | strict => "--strict"
  | only => "--only"
  | json => "--json"
  | configDir => "--config-dir"
  | help => "--help"

/-- The letter of the short name. -/
def letter? : Switch → Option Char
  | verbose => some 'v'
  | _ => none

/-- The option takes a value. -/
def takesValue : Switch → Bool
  | only | configDir => true
  | _ => false

/-- The options of a scope. -/
def ofScope : Scope → List Switch
  | .program => [version, verbose, help]
  | .validate => [strict, only, json, configDir, help]

end Switch

/-- Options with their values, in order, and words. -/
structure Arguments where
  /-- The options; one that takes no value has an empty one. -/
  options : List (Switch × String)
  /-- The words. -/
  words : List String
  deriving DecidableEq, Repr, Inhabited

namespace Arguments

/-- The arguments with options before them. -/
def withOptions (os : List (Switch × String)) (a : Arguments) : Arguments :=
  { a with options := os ++ a.options }

/-- The arguments with a word before them. -/
def withWord (w : String) (a : Arguments) : Arguments := { a with words := w :: a.words }

/-- The argument is an option. -/
def isOption (arg : String) : Bool :=
  match arg.toList with
  | '-' :: _ :: _ => true
  | _ => false

/-- The name and value of a long option. -/
def cutValue (arg : String) : String × Option String :=
  let (name, value) := cutAt '=' arg.toList
  (String.ofList name, value.map String.ofList)

/-- The short options after a hyphen; none of them takes a value. -/
def shortOptions (known : List Switch) : List Char → Except Misuse (List (Switch × String))
  | [] => .ok []
  | c :: cs =>
    match known.find? fun s => s.letter? == some c with
    | some s => do return (s, "") :: (← shortOptions known cs)
    | none => .error (.noSuchOption (String.ofList ['-', c]) [])

/-- What is wrong with a name that no long option has. -/
def unknownOption (known : List Switch) (name : String) : Misuse :=
  .noSuchOption name (closeWords name (known.map Switch.name))

/-- Reads arguments. With `mixed`, options may follow words. -/
def read (known : List Switch) (mixed : Bool) : List String → Except Misuse Arguments
  | [] => .ok ⟨[], []⟩
  | arg :: rest =>
    if arg = "--" then .ok ⟨[], rest⟩
    else if !isOption arg then
      if mixed then do return (← read known mixed rest).withWord arg else .ok ⟨[], arg :: rest⟩
    else
      let (name, value) := cutValue arg
      match known.find? fun s => s.name == name, value with
      | some s, some v =>
        if s.takesValue then do return (← read known mixed rest).withOptions [(s, v)]
        else .error (.valueUnwanted s.name)
      | some s, none =>
        if s.takesValue then
          match rest with
          | [] => .error (.valueMissing s.name)
          | v :: rest => do return (← read known mixed rest).withOptions [(s, v)]
        else do return (← read known mixed rest).withOptions [(s, "")]
      | none, _ =>
        if arg.startsWith "--" then .error (unknownOption known name)
        else do
          let short ← shortOptions known (arg.toList.drop 1)
          return (← read known mixed rest).withOptions short

/-- The arguments for a scope. -/
def ofList (s : Scope) (args : List String) : Except Misuse Arguments :=
  read (Switch.ofScope s) (s == .validate) args

/-- The option is given. -/
def has (a : Arguments) (s : Switch) : Bool := a.options.any fun o => o.1 == s

/-- The values of an option, in order. -/
def values (a : Arguments) (s : Switch) : List String :=
  (a.options.filter fun o => o.1 == s).map Prod.snd

/-- The options that are given, each once, in the order in which they come first. -/
def given (a : Arguments) : List Switch := (a.options.map Prod.fst).eraseDups

end Arguments

end RefCheck.Cli
