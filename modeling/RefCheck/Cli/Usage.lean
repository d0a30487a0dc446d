import RefCheck.Check.Basic
import RefCheck.Text.Quoted

/-!
# How the program is called

The program has one command, which checks a model. This module holds the texts that tell how it is called,
and what can be wrong with a call.
-/

namespace RefCheck.Cli

/-- The version of the program. -/
def version : String := "0.1.0"

/-- What a call is about: the program itself, or its command. -/
inductive Scope where
  /-- The program. -/
  | program
  /-- The command that checks a model. -/
  | validate
  deriving DecidableEq, Repr, Inhabited

/-- The name of the command. -/
def validateName : String := "validate"

/-- The name of the file that is checked. -/
def projectArgument : String := "PROJECT_JSON"

namespace Scope

/-- How the scope is called. -/
def path : Scope → String
  | program => "docxref"
  | validate => "docxref " ++ validateName

/-- What the command does. -/
def validateSummary : String :=
  "Validate @see, @fires, \x7b@link\x7d references and overload labels."

/-- The line that shows the parts of a call. -/
def usage : Scope → String
  | program => "Usage: docxref [OPTIONS] COMMAND [ARGS]..."
  | validate => "Usage: docxref validate [OPTIONS] " ++ projectArgument

/-- The lines of help. -/
def helpLines (s : Scope) : List String :=
  s.usage :: "" :: match s with
  | program =>
    ["  docxref - Cross-reference validation for generated API documentation.",
      "",
      "Options:",
      "  --version      Show the version and exit.",
      "  -v, --verbose  Enable debug logging",
      "  --help         Show this message and exit.",
      "",
      "Commands:",
      "  validate  " ++ validateSummary]
  | validate =>
    ["  " ++ validateSummary,
      "",
      "  PROJECT_JSON is the reflection model written by the documentation generator.",
      "",
      "Options:",
      "  --strict                        Fail when any issue is reported",
      "  --only [overloads|see|links|fires]",
      "                                  Run only the named validator (repeatable)",
      "  --json                          Output the report as JSON",
      "  --config-dir DIRECTORY          Directory holding .docxref.yaml (default:",
      "                                  current directory)",
      "  --help                          Show this message and exit."]

/-- The text of help. -/
def help (s : Scope) : String := String.join (s.helpLines.map (· ++ "\n"))

end Scope

/-- The text of the version. -/
def versionText : String := "docxref, version " ++ version ++ "\n"

/-- What a path has to lead to. -/
inductive Wanted where
  /-- A file. -/
  | file
  /-- A directory. -/
  | directory
  deriving DecidableEq, Repr, Inhabited

/-- The word for it. -/
def Wanted.word : Wanted → String
  | file => "File"
  | directory => "Directory"

/-- What it is if it is the other one. -/
def Wanted.otherWord : Wanted → String
  | file => "directory"
  | directory => "file"

/-- What is wrong with a call. -/
inductive Misuse where
  /-- There is no option of this name; some names are close to it. -/
  | noSuchOption (name : String) (close : List String)
  /-- The option has no value. -/
  | valueMissing (option : String)
  /-- The option takes no value. -/
  | valueUnwanted (option : String)
  /-- No command is given. -/
  | noCommand
  /-- There is no command of this name; some names are close to it. -/
  | noSuchCommand (name : String) (close : List String)
  /-- An argument is missing. -/
  | argumentMissing (name : String)
  /-- There are more arguments than are asked for. -/
  | argumentsExtra (arguments : List String)
  /-- The value is none of those that are allowed. -/
  | notAmong (parameter value : String) (choices : List String)
  /-- The path leads nowhere. -/
  | absent (parameter : String) (wanted : Wanted) (path : String)
  /-- The path leads to a file instead of a directory, or the other way round. -/
  | otherKind (parameter : String) (wanted : Wanted) (path : String)
  deriving DecidableEq, Repr, Inhabited

namespace Misuse

/-- The hint at names that are close. -/
def hint : List String → String
  | [] => ""
  | [name] => " Did you mean " ++ Text.quoted name ++ "?"
  | names => " (Did you mean one of: " ++ ", ".intercalate (names.map Text.quoted) ++ "?)"

/-- A message about a value. -/
def aboutValue (parameter message : String) : String :=
  "Invalid value for '" ++ parameter ++ "': " ++ message

/-- The message. -/
def message : Misuse → String
  | noSuchOption name close => "No such option " ++ Text.quoted name ++ "." ++ hint close
  | valueMissing option => "Option " ++ Text.quoted option ++ " requires an argument."
  | valueUnwanted option => "Option " ++ Text.quoted option ++ " does not take a value."
  | noCommand => "Missing command."
  | noSuchCommand name close =>
    "No such command " ++ Text.quoted name ++ "." ++ hint close
  | argumentMissing name => "Missing argument '" ++ name ++ "'."
  | argumentsExtra arguments =>
    (if arguments.length = 1 then "Got unexpected extra argument ("
      else "Got unexpected extra arguments (") ++ " ".intercalate arguments ++ ")"
  | notAmong parameter value choices =>
    aboutValue parameter (Text.quoted value ++ " is not one of " ++
      ", ".intercalate (choices.map Text.quoted) ++ ".")
  | absent parameter wanted path =>
    aboutValue parameter (wanted.word ++ " " ++ Text.quoted path ++ " does not exist.")
  | otherKind parameter wanted path =>
    aboutValue parameter
      (wanted.word ++ " " ++ Text.quoted path ++ " is a " ++ wanted.otherWord ++ ".")

/-- What is wrong is only the value of an option that is known. -/
def isAboutUse : Misuse → Bool
  | valueMissing _ | valueUnwanted _ => true
  | _ => false

/-- The text that tells what is wrong, and how the program is called unless the options are known. -/
def text (m : Misuse) (s : Scope) : String :=
  let usage := s.usage ++ "\nTry '" ++ s.path ++ " --help' for help.\n\n"
  (if m.isAboutUse then "" else usage) ++ "Error: " ++ m.message ++ "\n"

end Misuse

end RefCheck.Cli
