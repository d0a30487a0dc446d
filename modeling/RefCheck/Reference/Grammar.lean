import RefCheck.Reference.Basic
import RefCheck.Text.Blank
import RefCheck.Text.Split

/-!
# The written form of references

A reference is written as up to three parts in a row: `module:` and the segments of the module's name
with slashes between them; `~` and the name of the type; `#` or `.` and the name of the member, where
`#event:` addresses an event. A colon after the name of a member, other than an event, separates it from
a label.

A single character is a list marker and an address of the web lies outside the model, so neither is a
reference at all.
-/

namespace RefCheck.Reference

open RefCheck.Text

/-- The addresses that lead out of the model start in one of these ways. -/
def externalLeads : List (List Char) := ["http://".toList, "https://".toList]

/-- A trimmed text is a reference. -/
def isTrimmedReference (t : List Char) : Bool :=
  1 < t.length && !externalLeads.any fun lead => startsWith lead t

/-- A text is a reference. -/
def isReferenceText (cs : List Char) : Bool := isTrimmedReference (trim cs)

/-- A string is a reference. -/
def isReference (s : String) : Bool := isReferenceText s.toList

/-! ## The parts -/

/-- What names a module. -/
def moduleLead : List Char := "module:".toList

/-- What addresses an event. -/
def eventLead : List Char := "#event:".toList

/-- The character may stand in the name of a module. -/
def inModule (c : Char) : Bool := c != '~' && c != '#'

/-- The character may stand in the name of a type. -/
def inType (c : Char) : Bool := c != '#' && c != '.'

/-- The module at the start of a text, and what follows it. -/
def takeModule (t : List Char) : Option (List Char) × List Char :=
  match dropLead? moduleLead t with
  | some rest => (some (rest.takeWhile inModule), rest.dropWhile inModule)
  | none => (none, t)

/-- The type at the start of a text, and what follows it. -/
def takeType : List Char → Option (List Char) × List Char
  | '~' :: rest => (some (rest.takeWhile inType), rest.dropWhile inType)
  | t => (none, t)

/-- The member of a reference: its marker, name and label. -/
structure Member where
  /-- How the member is addressed. -/
  marker : Marker
  /-- Its name. -/
  name : Option (List Char)
  /-- The label of a signature. -/
  label : Option (List Char)
  deriving DecidableEq, Repr, Inhabited

/-- The name of a member, and the label after a colon if it is not empty. -/
def readNamed (marker : Marker) (cs : List Char) : Member :=
  match cutAt ':' cs with
  | (name, some (c :: label)) => ⟨marker, some name, some (c :: label)⟩
  | (name, _) => ⟨marker, some name, none⟩

/-- Reads all that follows the type. -/
def readMember (cs : List Char) : Member :=
  match dropLead? eventLead cs with
  | some name => ⟨.event, some name, none⟩
  | none =>
    match cs with
    | [] => ⟨.none, none, none⟩
    | '#' :: rest => readNamed .inst rest
    | '.' :: rest => readNamed .static rest
    | _ => ⟨.none, some cs, none⟩

/-- The reference that a trimmed text writes down. -/
def ofTrimmed (t : List Char) : Reference :=
  let (module?, afterModule) := takeModule t
  let (type?, afterType) := takeType afterModule
  let member := readMember afterType
  { raw := String.ofList t
    modulePath := module?.map fun m => (segments '/' m).map String.ofList
    typeName := type?.map String.ofList
    memberName := member.name.map String.ofList
    marker := member.marker
    label := member.label.map String.ofList }

/-- The reference that a text writes down, if it is one. -/
def ofChars? (cs : List Char) : Option Reference :=
  let t := trim cs
  if isTrimmedReference t then some (ofTrimmed t) else none

/-- The reference that a string writes down, if it is one. -/
def parse? (s : String) : Option Reference := ofChars? s.toList

end RefCheck.Reference
