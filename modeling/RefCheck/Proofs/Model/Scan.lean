import RefCheck.Proofs.Model.Tree
import RefCheck.Reference.Basic

/-!
# Resolving by scanning

What a reference names can be found without any table, by going through the model. The definitions here say
what each part of a reference means in this way; they read the model only, and nothing in them is kept from
one question to the next.

* A module is found by going through the walk, and what it exports by going through its children. Several
  modules may share a path; they count in the order of the walk.
* A member is looked for among the children of a class, an event also among those of the types that the
  class descends from.
* The owners of a declaration are the reflections in whose walk it stands.

## Descent

The types that a class descends from are taken level by level: first its bases, then what these extend, and
so on, each type once. A level is made from the whole level before it, so no queue is involved and the order
within a level is read off the order in which the level before names its bases.
-/

namespace RefCheck.Model

variable (m : Model)

/-! ## Modules -/

/-- The modules with a path, in the order of the walk. -/
def modulesAt (path : List String) : List Handle :=
  m.walk.filter fun h ↦ (m.get h).isModule && (m.get h).modulePath == path

/-- The first module with a path, or the first child of this name that a module with the path has and that
is no module itself. -/
def exported? (path : List String) : Option String → Option Handle
  | none => (m.modulesAt path).head?
  | some name => ((m.modulesAt path).flatMap fun h ↦ (m.get h).children).find? fun c ↦
      !(m.get c).isModule && (m.get c).name == name

/-! ## Members -/

/-- The children of a reflection that are members, and no events, with a name; either those of instances or
the static ones. -/
def membersNamed (h : Handle) (name : String) (isStatic : Bool) : List Handle :=
  (m.get h).children.filter fun c ↦ (m.get c).kind.meets .member && !(m.get c).kind.meets .event &&
    (m.get c).name == name && (m.get c).isStatic == isStatic

/-- The first member of a class with a name that is declared in the class itself, or the first at all if
every one of them is inherited. -/
def memberNamed? (h : Handle) (name : String) (isStatic : Bool) : Option Handle :=
  if (m.get h).isContainer then
    ((m.membersNamed h name isStatic).find? fun c ↦ !(m.get c).isInherited).or
      (m.membersNamed h name isStatic).head?
  else none

/-! ## Events -/

/-- The first event of a name among the children of a reflection. -/
def declaredEvent? (name : String) (h : Handle) : Option Handle :=
  (m.get h).children.find? fun c ↦ (m.get c).kind.meets .event && (m.get c).name == name

/-- The bases of some reflections that were not seen before, each once, in the order in which they are
named. -/
def newBases (seen level : List Handle) : List Handle :=
  ((level.flatMap fun h ↦ (m.get h).bases).filter fun b ↦ b < m.size && !seen.contains b).eraseDups

/-- The bases of a level, then the bases of these, to a number of levels. -/
def descentTo : Nat → List Handle → List Handle → List Handle
  | 0, _, _ => []
  | levels + 1, seen, level =>
    m.newBases seen level ++
      descentTo levels (seen ++ m.newBases seen level) (m.newBases seen level)

/-- The types that a reflection descends from, nearest first. -/
def descent (h : Handle) : List Handle := m.descentTo m.size [h] [h]

/-- The event of a name that a class declares, or else the one that the first class or interface of the
project on its line of descent declares. -/
def eventNamed? (h : Handle) (name : String) : Option Handle :=
  if (m.get h).isContainer then
    (h :: (m.descent h).filter fun a ↦ m.walk.contains a && (m.get a).isContainer).findSome?
      (m.declaredEvent? name)
  else none

/-! ## References -/

/-- The nearest module that holds a reflection. -/
def holdingModule? (h : Handle) : Option Handle := (m.holders h).find? fun k ↦ (m.get k).isModule

/-- The nearest class or interface that holds a reflection and is met before a module. -/
def holdingContainer? (h : Handle) : Option Handle :=
  ((m.holders h).takeWhile fun k ↦ !(m.get k).isModule).find? fun k ↦ (m.get k).isContainer

/-- What a reference names before its member. -/
def scopeNamed? (r : Reference) (context : Handle) : Option Handle :=
  match r.modulePath, r.typeName with
  | some path, type => m.exported? path type
  | none, some type =>
    match m.holdingModule? context with
    | some h => m.exported? (m.get h).modulePath (some type)
    | none => none
  | none, none => m.holdingContainer? context

/-- A member, or its first signature with a label if one is asked for. -/
def signatureNamed? (member : Handle) : Option String → Option Handle
  | none => some member
  | some label => (m.get member).signatures.find? fun s ↦ (m.get s).label? == some label

/-- What a reference names in its scope. -/
def namedIn? (r : Reference) (scope : Handle) : Option Handle :=
  match r.marker with
  | .none => some scope
  | .inst => (m.memberNamed? scope (r.memberName.getD "") false).bind (m.signatureNamed? · r.label)
  | .static => (m.memberNamed? scope (r.memberName.getD "") true).bind (m.signatureNamed? · r.label)
  | .event => m.eventNamed? scope (r.memberName.getD "")

/-- What a reference names, found by scanning the model. -/
def target? (r : Reference) (context : Handle) : Option Handle :=
  if r.isLoose then none else (m.scopeNamed? r context).bind (m.namedIn? r)

end RefCheck.Model
