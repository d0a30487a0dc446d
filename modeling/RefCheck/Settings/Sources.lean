import RefCheck.Disk
import RefCheck.Settings.Environment
import RefCheck.Yaml.Input
import RefCheck.Yaml.Meaning

/-!
# Settings from all sources

There are four sources. What a program gives comes first, then the environment, then the file of the
project and last the file of the user. They are laid over one another, and what none of them says keeps
its standard value. The names of sections are those of the files; the environment and a program may write
them in letters of any case.

A problem with a value is told with the first error only. Sections that are not known are refused, after
every error in those that are.
-/

namespace RefCheck

open RefCheck.Yaml

namespace Settings

/-- The name of the file of a project. -/
def projectFileName : String := ".docxref.yaml"

/-- The path of the file of a user. -/
def userFileName : String := "~/.config/docxref/config.yaml"

/-- A settings file: its path, and what that leads to. -/
structure File where
  /-- The path as messages show it. -/
  path : String
  /-- What is there, if anything. -/
  entry? : Option Entry
  /-- The words in which the reader of the format says what is wrong with the file, if it breaks the syntax. -/
  complaint : String
  deriving Inhabited, Repr

/-- The data that a file says as far as it is known, or why there is none. -/
def dataOf (path complaint : String) (known : Input) : Except Fault Data :=
  match Data.ofText (known.extent == .whole) known.text with
  | .ok d => .ok d
  | .error (.unreadable u) => .error (.unreadable u)
  | .error m =>
    if m = .cutOff && known.extent == .noText then .error .notUtf8
    else .error (.problem (.settingsMalformed path complaint))

/-- The entries that the bytes of a file say; an empty file has none. -/
def entriesOfBytes (path complaint : String) (bytes : List UInt8) : Except Fault (List (Scalar × Data)) := do
  let d ← dataOf path complaint (.ofBytes bytes)
  match d.opened with
  | .map entries => return entries
  | _ =>
    if d.truthy then
      .error (.problem (.settingsUnreadable (.str path) (.str "top-level value must be a mapping")))
    else return []

/-- The entries of a file; one that is not there has none. -/
def File.entries (f : File) : Except Fault (List (Scalar × Data)) :=
  match f.entry? with
  | some (.file bytes) => entriesOfBytes f.path f.complaint bytes
  | some .directory => .error (.disk .isDirectory)
  | _ => .ok []

/-- Where settings come from. -/
structure Sources where
  /-- The file of the user. -/
  userFile : File
  /-- The file of the project. -/
  projectFile : File
  /-- The environment. -/
  environment : Environment
  /-- What a program gives. -/
  given : List (Scalar × Data)
  /-- The home directories. -/
  homes : Homes
  deriving Inhabited, Repr

/-- The errors of sections that are not known. -/
def unknownSections : List (Scalar × Data) → List FieldError
  | [] => []
  | (.str key, d) :: rest =>
    if sectionNames.contains key then unknownSections rest
    else ⟨[.field key], .unknown, d⟩ :: unknownSections rest
  | _ :: rest => unknownSections rest

/-- The key is a text. -/
def isTextKey : Scalar → Bool
  | .str _ => true
  | _ => false

/-- Reads settings from entries that have no others than sections. -/
def readExactly (homes : Homes) (entries : List (Scalar × Data)) : Checked Settings :=
  .zipWith (fun s _ => s) (readSections homes (.map entries)) (.ofErrors (unknownSections entries))

/-- The fault that an error of a value makes: a problem that shows the value, unless a number in it is too
long to be shown. -/
def faultOf (e : FieldError) : Fault :=
  if e.value.holdsLong then .unreadable .longNumber
  else .problem (.settingInvalid (.str e.pathText) (.str e.value.display) (.str e.flaw.message))

/-- The settings, or the first thing that is wrong with them. -/
def firstProblem : Checked Settings → Except Fault Settings
  | .accepted s => .ok s
  | .refused e _ => .error (faultOf e)
  | .stopped f => .error f

/-- The name of a section for a key that has it in letters of any case; every other key stays. -/
def sectionKey : Scalar → Scalar
  | .str s => .str ((sectionNames.find? fun n => n == Text.lower s).getD s)
  | k => k

/-- What a program gives, with the names of sections in their proper case. Of several keys for one section
the first counts. -/
def properSections (given : List (Scalar × Data)) : List (Scalar × Data) :=
  given.foldl (fun known e =>
    let key := sectionKey e.1
    if (Data.lookup key known).isSome then known else Data.put key e.2 known) []

/-- What all sources say. -/
def Sources.entries (src : Sources) : Except Fault (List (Scalar × Data)) := do
  let user ← src.userFile.entries
  let project ← src.projectFile.entries
  let environment ← src.environment.data
  let entries := Data.overlayEntries (Data.overlayEntries user project)
    (Data.overlayEntries environment (properSections src.given))
  if entries.all fun e => isTextKey e.1 then return entries else .error .keyNotText

/-- Settings read once more, from the value that they make up. -/
def reread (homes : Homes) (s : Settings) : Except Fault Settings :=
  (read homes (Data.ofValue s.toValue)).toExcept

/-- The settings from all sources. What comes of a first reading is read a second time; its errors are then no
problem that is told. -/
def load (src : Sources) : Except Fault Settings := do
  let s ← firstProblem (readExactly src.homes (← src.entries))
  reread src.homes s

end Settings

end RefCheck
