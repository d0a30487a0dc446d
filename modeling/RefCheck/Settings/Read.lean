import RefCheck.Data.Utf8
import RefCheck.Path
import RefCheck.Settings.Basic
import RefCheck.Settings.Checked
import RefCheck.Yaml.Data

/-!
# Reading settings

Settings are read from the data of files, from the environment and from a program alike. A section is a
mapping; what it does not say keeps its standard value, and what no setting is named is passed over. The
errors come in the order of the settings, whatever the order of the data.
-/

namespace RefCheck

open RefCheck.Log RefCheck.Yaml

namespace Settings

/-! ## Plain values -/

/-- The text that bytes encode. -/
def textOfBytes? (bytes : List UInt8) : Option String :=
  (Utf8.decode bytes).toOption.map String.ofList

/-- The words for a truth value, with small letters. -/
def truthWords : List (String × Bool) :=
  [("0", false), ("off", false), ("f", false), ("false", false), ("n", false), ("no", false),
    ("1", true), ("on", true), ("t", true), ("true", true), ("y", true), ("yes", true)]

/-- The truth value that a whole number stands for. -/
def truthOfInt? (n : Int) : Option Bool :=
  if n = 0 then some false else if n = 1 then some true else none

/-- The truth value that a word stands for. -/
def truthOfText? (s : String) : Option Bool := truthWords.lookup (s.map Char.toLower)

/-- The size of a word of 64 bits with a sign: whole numbers from its opposite up to it, itself not
included, fit such a word. -/
def wordSize : Int := Nat.pow 2 63

/-- What comes of the number that a truth value is read from; `fits` tells that a word of 64 bits holds
it. -/
def readTruthNumber (fits : Bool) (n : Int) (d : Data) : Checked Bool :=
  match truthOfInt? n with
  | some b => .accepted b
  | none => .flaw (if fits then .unreadTruth else .notTruth) d

/-- What comes of the word that a truth value is read from. -/
def readTruthWord (word : Option String) (d : Data) : Checked Bool :=
  match word.bind truthOfText? with
  | some b => .accepted b
  | none => .flaw .unreadTruth d

/-- Reads a truth value: one itself, a number equal to zero or one, or a word for it in letters of any
case. A whole number that fits a word of 64 bits is read and refused, also as a floating point number;
what is greater is not read at all. -/
def readTruth (d : Data) : Checked Bool :=
  match d with
  | .scalar (.bool b) => .accepted b
  | .scalar (.int n) => readTruthNumber (-wordSize ≤ n && n < wordSize) n d
  | .scalar (.float x) =>
    match x.whole? with
    | some n => readTruthNumber (-wordSize < n && n < wordSize) n d
    | none => .flaw .notTruth d
  | .scalar (.str s) => readTruthWord (some s) d
  | .scalar (.bytes bs) => readTruthWord (textOfBytes? bs) d
  | _ => .flaw .notTruth d

/-- Reads a text, which may be given by its bytes. -/
def readText (d : Data) : Checked String :=
  match d with
  | .scalar (.str s) => .accepted s
  | .scalar (.bytes bs) =>
    match textOfBytes? bs with
    | some s => .accepted s
    | none => .flaw .unreadText d
  | _ => .flaw .notText d

/-- Reads one of several names. -/
def readAmong {α : Type} (all : List α) (name : α → String) (d : Data) : Checked α :=
  match d.text?.bind fun s => all.find? fun a => name a == s with
  | some a => .accepted a
  | none => .flaw (.notAmong (all.map name)) d

/-- Reads every item of a list or a set. -/
def readList {α : Type} (read : Data → Checked α) (d : Data) : Checked (List α) :=
  match d.opened with
  | .list items => .itemsFrom read 0 items
  | .set members => .itemsFrom read 0 (members.map Data.scalar)
  | _ => .flaw .notList d

/-- Reads a setting of a section, or gives its standard value. -/
def readField {α : Type} (section_ : Data) (name : String) (standard : α)
    (read : Data → Checked α) : Checked α :=
  match section_.get? name with
  | some d => (read d).under (.field name)
  | none => .accepted standard

/-- Reads a section, which has to be a mapping. -/
def readSection {α : Type} (name : String) (read : Data → Checked α) (d : Data) : Checked α :=
  match d.opened with
  | .map entries => read (.map entries)
  | _ => .flaw (.notSection name) d

/-! ## Outputs -/

/-- A destination in its shortest form; that of a file has to be absolute. -/
def destination (homes : Homes) (s : String) : Checked String :=
  if s = errorStream || s = resultStream then .accepted s
  else
    match (Path.ofString s).expandHome homes with
    | .error (.disk .holdsNull) => .flaw (.refused "embedded null byte") (.str s)
    | .error f => .stopped f
    | .ok p =>
      if p.isAbsolute then .accepted p.text
      else .flaw (.refused ("File destination must be absolute path: " ++ s)) (.str s)

/-- Reads a level. -/
def readLevel : Data → Checked Level := readAmong Level.all Level.name

/-- Reads a level that may be left to the others. -/
def readOwnLevel : Data → Checked (Option Level)
  | .scalar .null => .accepted none
  | d => (readLevel d).map some

/-- Reads an output. -/
def readOutput (homes : Homes) : Data → Checked LogOutput :=
  readSection "LogOutputConfig" fun d =>
    let standard := LogOutput.standard
    .zipWith (fun format rest => ⟨format, rest.1, rest.2⟩)
      (readField d "format" standard.format (readAmong LogFormat.all LogFormat.name))
      (.zipWith Prod.mk
        (readField d "destination" standard.destination fun d =>
          (readText d).andThen (destination homes))
        (readField d "level" standard.level readOwnLevel))

/-! ## Sections -/

/-- Reads what is logged where. -/
def readLogging (homes : Homes) : Data → Checked LogSettings :=
  readSection "LoggingConfig" fun d =>
    .zipWith LogSettings.mk
      (readField d "level" LogSettings.standard.level readLevel)
      (readField d "outputs" LogSettings.standard.outputs (readList (readOutput homes)))

/-- Settings with a single output, which is the stream of errors. -/
def readSingle (format : LogFormat) (level : Data) : Checked LogSettings :=
  ((readLevel level).under (.field "level")).map fun l => ⟨l, [{ LogOutput.standard with format }]⟩

/-- What is wrong with names that no check has. -/
def unknownChecks (names : List String) : String :=
  "Unknown validator(s): " ++ ", ".intercalate names ++ ". Expected any of: " ++
    ", ".intercalate Check.names

/-- The checks of some names, in the order of the checks. -/
def checksNamed (given : Data) (names : List String) : Checked (List Check) :=
  let unknown := names.filter fun s => (Check.ofName? s).isNone
  if unknown.isEmpty then .accepted (Check.all.filter fun c => names.contains c.name)
  else .flaw (.refused (unknownChecks unknown)) given

/-- Reads which checks run. -/
def readChecks (d : Data) : Checked (List Check) :=
  (readList readText d).andThen (checksNamed d)

/-- Reads how a model is checked. -/
def readValidation : Data → Checked CheckSettings :=
  readSection "ValidationConfig" fun d =>
    let standard := CheckSettings.standard
    .zipWith (fun strict rest => ⟨strict, rest.1, rest.2⟩)
      (readField d "strict" standard.strict readTruth)
      (.zipWith Prod.mk
        (readField d "validators" standard.validators readChecks)
        (readField d "excluded_paths" standard.excludedPaths (readList readText)))

/-- The names of the sections. -/
def sectionNames : List String := ["logging", "validation"]

/-- Reads the sections of a mapping. -/
def readSections (homes : Homes) (d : Data) : Checked Settings :=
  .zipWith Settings.mk
    (readField d "logging" LogSettings.standard (readLogging homes))
    (readField d "validation" CheckSettings.standard readValidation)

/-- Reads all settings. -/
def read (homes : Homes) : Data → Checked Settings :=
  readSection "DocXrefConfig" (readSections homes)

end Settings

end RefCheck
