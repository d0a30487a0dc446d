import RefCheck.Path

/-!
# Disks

A disk holds directories, files and links, each under the names that lead to it from the root. A path is
*followed* name by name: a point stays in a directory, two points go up from it, and any other name leads
into it. Every name is taken in a directory; what is no directory, or is not there, ends the way.

Directories and files are made with all that was made before a flaw left in place, so making something
gives a disk in either case. `Disk.makeDirectories` makes a directory together with those around it.
`Disk.openLog` opens a file to be written at its end; it takes the path as text at that moment, where two
points cancel the name before them, while the directories around the file were made by following it.
-/

namespace RefCheck

/-- What names lead to. -/
inductive Entry where
  /-- A directory. -/
  | directory
  /-- A file with these bytes. -/
  | file (bytes : List UInt8)
  /-- A link to what has these names and is no link itself. -/
  | link (target : List String)
  deriving Repr, Inhabited

/-- Entries by their names from the root; of several for the same names the first counts. The root itself
is always a directory. -/
structure Disk where
  /-- The entries. -/
  entries : List (List String × Entry)
  deriving Repr, Inhabited

namespace Disk

/-- The greatest size of a name, in bytes. -/
def nameLimit : Nat := 255

/-- The size, in bytes, that the text of a path does not reach. -/
def pathLimit : Nat := 4096

/-- The entry of some names. -/
def entry? (d : Disk) (names : List String) : Option Entry :=
  if names.isEmpty then some .directory else d.entries.lookup names

/-- The names are those of a directory. -/
def isDirectory (d : Disk) (names : List String) : Bool :=
  match d.entry? names with
  | some .directory => true
  | _ => false

/-- The disk with another entry. -/
def put (d : Disk) (names : List String) (e : Entry) : Disk := ⟨(names, e) :: d.entries⟩

/-- The disk with another entry and the directories around it. -/
def putDeep (d : Disk) (names : List String) (e : Entry) : Disk :=
  (((List.range names.length).map names.take).foldl (fun d outer => d.put outer .directory) d).put
    names e

/-- The path of some names. -/
def pathText (names : List String) : String := "/" ++ "/".intercalate names

/-- The names between the slashes of a path. -/
def pathNames (path : String) : List String := (Text.pieces '/' path.toList).map String.ofList

/-! ## Following paths -/

/-- The names that a name leads to from a place. -/
def step (d : Disk) (here : List String) (name : String) : Except DiskFlaw (List String) :=
  match d.entry? here with
  | none => .error .absent
  | some .directory =>
    if name = "" || name = "." then .ok here
    else if name = ".." then .ok here.dropLast
    else if nameLimit < name.utf8ByteSize then .error .tooLong
    else
      match d.entry? (here ++ [name]) with
      | some (.link target) => .ok target
      | _ => .ok (here ++ [name])
  | some _ => .error .notDirectory

/-- The names that a way leads to from a place; whether something is there is left open. -/
def follow (d : Disk) (here names : List String) : Except DiskFlaw (List String) :=
  names.foldlM d.step here

theorem follow_append (d : Disk) (here a b : List String) :
    d.follow here (a ++ b) = (d.follow here a).bind fun h => d.follow h b := by
  simp only [follow, List.foldlM_append]
  rfl

/-- A text that can be the path of something. -/
def checkPath (path : String) : Except DiskFlaw Unit :=
  if path.toList.contains '\x00' then .error .holdsNull
  else if path.isEmpty then .error .absent
  else if pathLimit ≤ path.utf8ByteSize then .error .tooLong
  else .ok ()

/-- Where a path starts: at the root, or in a directory. -/
def startOf (here : List String) (path : String) : List String :=
  if path.startsWith "/" then [] else here

/-- What a path leads to from a directory. -/
def find (d : Disk) (here : List String) (path : String) : Except DiskFlaw Entry := do
  checkPath path
  let start := startOf here path
  let there ← d.follow start (pathNames path)
  match d.entry? there with
  | some e => return e
  | none => .error .absent

/-- The bytes of the file that a path leads to. -/
def bytes? (d : Disk) (here : List String) (path : String) : Option (List UInt8) :=
  match d.find here path with
  | .ok (.file bytes) => some bytes
  | _ => none

/-! ## Making directories and files -/

/-- Where a new entry goes, as names from the inside out say; nothing may be there. -/
def newPlace (d : Disk) (inner : String) (outer : List String) : Except DiskFlaw (List String) := do
  let there ← d.step (← d.follow [] outer.reverse) inner
  if (d.entry? there).isSome then .error .occupied else return there

/-- Names from the inside out lead to a directory. -/
def leadsToDirectory (d : Disk) (names : List String) : Bool :=
  match d.follow [] names.reverse with
  | .ok there => d.isDirectory there
  | .error _ => false

/-- Makes a directory, unless there is one, in a directory; names are from the inside out. -/
def makeDirectory (d : Disk) (inner : String) (outer : List String) : Disk × Option DiskFlaw :=
  match d.newPlace inner outer with
  | .ok there => (d.put there .directory, none)
  | .error f => (d, if d.leadsToDirectory (inner :: outer) then none else some f)

/-- Makes a directory and those around it, as far as they are not there; names are from the inside out. -/
def makeDirectories (d : Disk) : List String → Disk × Option DiskFlaw
  | [] => (d, none)
  | inner :: outer =>
    match d.makeDirectory inner outer with
    | (_, some .absent) =>
      match d.makeDirectories outer with
      | (d, none) => d.makeDirectory inner outer
      | stopped => stopped
    | made => made

/-- Names in which two points cancel the name before them. -/
def plainNames (names : List String) : List String :=
  names.foldl (fun before name => if name = ".." then before.dropLast else before ++ [name]) []

/-- Opens the file at an absolute path, which is made if nothing is there; gives its names. -/
def openFile (d : Disk) (path : Path) : Disk × Except DiskFlaw (List String) :=
  let names := plainNames path.names
  let place := do
    checkPath (Path.text { path with names })
    d.follow [] names
  match place with
  | .error f => (d, .error f)
  | .ok there =>
    match d.entry? there with
    | some .directory => (d, .error .isDirectory)
    | some _ => (d, .ok there)
    | none =>
      if d.isDirectory there.dropLast then (d.put there (.file []), .ok there)
      else (d, .error .absent)

/-- Opens the file at an absolute path after the directories around it were made. -/
def openLog (d : Disk) (path : Path) : Disk × Except DiskFlaw (List String) :=
  match checkPath path.parent.text with
  | .error f => (d, .error f)
  | .ok () =>
    match d.makeDirectories path.parent.names.reverse with
    | (d, some f) => (d, .error f)
    | (d, none) => d.openFile path

end Disk

end RefCheck
