import RefCheck.Data.Reader
import RefCheck.Index.Table
import RefCheck.Settings.Overlay
import RefCheck.Settings.Read
import RefCheck.Text.Lower

/-!
# Settings of the environment

Variables whose names start with a lead hold settings. After the lead stands the name of a section, and
two low lines separate it from the name of a setting; the case of letters does not count.

* The variable of a section holds JSON: a whole section, or anything that is then read in its place.
* The variable of a setting holds its value, and wins over the variable of the section. A setting that is
  a list is JSON unless it is empty.
* More names after that of a setting lead into mappings.

A variable that holds no JSON where JSON is read is a fault. One of no known section is passed over.
-/

namespace RefCheck

open RefCheck.Yaml

/-- The variables of the environment, in order. -/
abbrev Environment := List (String × String)

namespace Environment

/-- How the names of variables that hold settings start, in small letters. -/
def lead : String := "docxref__"

/-- The variables with names in small letters. Of several the last counts. -/
def lowered (env : Environment) : Table String String :=
  env.foldl (fun t e => t.put (Text.lower e.1) e.2) .empty

/-- The names between pairs of low lines. -/
def splitNames : List Char → List (List Char)
  | [] => [[]]
  | '_' :: '_' :: cs => [] :: splitNames cs
  | c :: cs =>
    match splitNames cs with
    | [] => [[c]]
    | first :: rest => (c :: first) :: rest

/-- The data in JSON. What is no JSON, or holds too long a number, is a fault of the variable. -/
def readJson (text : String) : Except Fault Data :=
  match Json.decode text.toList with
  | .ok v => .ok (Data.ofValue v)
  | .error f => .error (if f.flaw = .tooDeep then .unreadable .tooDeep else .unreadVariable)

/-- A section as the environment sees it: its name, and those of its settings. -/
structure SectionNames where
  /-- The name of the section. -/
  name : String
  /-- The names of its settings. -/
  settings : List String
  /-- The settings that are lists. -/
  lists : List String
  deriving Repr, Inhabited

/-- The sections. -/
def sections : List SectionNames :=
  [⟨"logging", ["level", "outputs"], ["outputs"]⟩,
    ⟨"validation", ["strict", "validators", "excluded_paths"], ["validators", "excluded_paths"]⟩]

/-- Entries with a value put at the end of a way of names. Mappings are made on the way; where something
else is in the way, nothing changes. -/
def putAt (value : Data) : List String → List (Scalar × Data) → List (Scalar × Data)
  | [], entries => entries
  | [name], entries => Data.put (.str name) value entries
  | name :: rest, entries =>
    match Data.lookup (.str name) entries with
    | none => Data.put (.str name) (.map (putAt value rest [])) entries
    | some (.map inner) => Data.put (.str name) (.map (putAt value rest inner)) entries
    | some _ => entries

/-- The value of the variable of a setting. -/
def settingData (names : SectionNames) (way : List String) (text : String) : Except Fault Data :=
  match way with
  | [name] => if names.lists.contains name && text != "" then readJson text else .ok (Data.str text)
  | _ => .ok (Data.str text)

/-- The entries of a section that the variables of its settings make up, after those of `built`. -/
def settingEntries (names : SectionNames) (built : List (Scalar × Data)) :
    List (String × String) → Except Fault (List (Scalar × Data))
  | [] => .ok built
  | (name, text) :: rest =>
    match Text.dropLead? (lead ++ names.name ++ "__").toList name.toList with
    | none => settingEntries names built rest
    | some way => do
      let way := (splitNames way).map String.ofList
      let value ← settingData names way text
      settingEntries names (putAt value way built) rest

/-- The entries of a section with the names of settings in their proper case. -/
def properNames (names : SectionNames) (entries : List (Scalar × Data)) : List (Scalar × Data) :=
  entries.foldl (fun known e =>
    let key : Scalar :=
      match e.1 with
      | .str s => .str ((names.settings.find? fun n => n == Text.lower s).getD s)
      | k => k
    Data.put key e.2 known) []

/-- What the environment says about a section. -/
def sectionData? (known : Table String String) (names : SectionNames) :
    Except Fault (Option Data) := do
  match known.get? (lead ++ names.name) with
  | none =>
    match ← settingEntries names [] known.entries with
    | [] => return none
    | entries => return some (.map (properNames names entries))
  | some text =>
    match ← readJson text with
    | .map entries =>
      let built ← settingEntries names [] known.entries
      return some (.map (properNames names (Data.overlayEntries entries built)))
    | .scalar .null => return none
    | data => return some data

/-- What the environment says about the sections. -/
def data (env : Environment) : Except Fault (List (Scalar × Data)) := do
  let known := env.lowered
  let found ← sections.mapM fun names => do
    return (← sectionData? known names).map fun d => ((Scalar.str names.name), d)
  return found.filterMap id

end Environment

end RefCheck
