import RefCheck.Comment.Basic
import RefCheck.Model.Kind
import RefCheck.Text.Split

/-!
# Models

A model is what a documentation generator knows of a project: a graph of *reflections*, one for each
documented declaration. A reflection owns its signatures and children, knows its owner, and points to
the types that it extends and to the member that it inherits.

## Representation

The links make a graph, possibly with cycles, so reflections are kept in an array and a link is a
*handle*: a position in that array. A handle outside the array reads as a reflection without a name and
without links, which makes every function total.

Owning is meant to be acyclic: `walk` and `enclosing` go down and up at most as many levels as there are
reflections, which no path without repetition exceeds.
-/

namespace RefCheck

/-- A position in the array of reflections. -/
abbrev Handle := Nat

/-- Where a declaration is written. -/
structure Source where
  /-- The name of the file. -/
  fileName : String
  /-- The line, from one. -/
  line : Int
  /-- The name of the file from the root of the disk, as the model file gives it. -/
  fullFileName : Value
  deriving Inhabited, Repr, BEq

namespace Source

/-- The path by which the file is filtered: the full name, or the short one if there is none. -/
def path (s : Source) : Value := if s.fullFileName.truthy then s.fullFileName else .str s.fileName

/-- File and line. -/
def text (s : Source) : String := s.fileName ++ ":" ++ toString s.line

end Source

/-- A documented declaration. -/
structure Reflection where
  /-- The number by which the model file refers to it. -/
  id : Int
  /-- Its name. -/
  name : String
  /-- Its kind. -/
  kind : Kind
  /-- Its comment. -/
  comment : Option Comment
  /-- Where it is written. -/
  sources : List Source
  /-- It belongs to the class itself and not to its instances. -/
  isStatic : Bool
  /-- Its members, parameters and the types written out in it. -/
  children : List Handle
  /-- Its signatures. -/
  signatures : List Handle
  /-- The types that it extends or implements, in the order in which they are declared. -/
  bases : List Handle
  /-- The member of a base type that it repeats. -/
  inheritedFrom : Option Handle
  /-- The reflection that owns it. -/
  parent : Option Handle
  deriving Inhabited, Repr

namespace Reflection

/-- A reflection without links. -/
def free (id : Int) (name : String) (kind : Kind) (comment : Option Comment) (sources : List Source)
    (isStatic : Bool) : Reflection :=
  { id, name, kind, comment, sources, isStatic, children := [], signatures := [], bases := [],
    inheritedFrom := none, parent := none }

/-- A module. -/
def isModule (r : Reflection) : Bool := r.kind.meets .module

/-- A class or an interface. -/
def isContainer (r : Reflection) : Bool := r.kind.meets .container

/-- A signature. -/
def isSignature (r : Reflection) : Bool := r.kind.meets .signature

/-- It repeats a member of a base type. -/
def isInherited (r : Reflection) : Bool := r.inheritedFrom.isSome

/-- The text of the first `@label` tag, if it is not blank. -/
def label? (r : Reflection) : Option String :=
  match r.comment.bind (·.tagNamed? labelTag) with
  | some t => if t.text = "" then none else some t.text
  | none => none

/-- The segments of the name of a module. -/
def modulePath (r : Reflection) : List String :=
  (Text.segments '/' r.name.toList).map String.ofList

end Reflection

/-- A model: the reflections, and those of them that no other owns. -/
structure Model where
  /-- The name of the project. -/
  name : String
  /-- The top level, in order. -/
  roots : List Handle
  /-- Every reflection. -/
  reflections : Array Reflection
  deriving Inhabited, Repr

namespace Model

/-- A model without reflections. -/
def empty (name : String) : Model := ⟨name, [], #[]⟩

/-- How many reflections there are. -/
def size (m : Model) : Nat := m.reflections.size

/-- The reflection at a handle. -/
def get (m : Model) (h : Handle) : Reflection := m.reflections.getD h default

/-! ## Going down -/

/-- The handles that a reflection owns: its signatures, then its children. -/
def owned (m : Model) (h : Handle) : List Handle := (m.get h).signatures ++ (m.get h).children

/-- The handles that some reflections own, each once. -/
def levelBelow (m : Model) (hs : List Handle) : List Handle := (hs.flatMap m.owned).eraseDups

/-- Below some reflections there is one that owns itself, directly or through others. A way down that is as
long as there are reflections leads to one of them twice. -/
def isEndless (m : Model) (hs : List Handle) : Bool := !(Nat.repeat m.levelBelow m.size hs).isEmpty

/-- A reflection and all below it to a number of levels, owners first. -/
def walkTo (m : Model) : Nat → Handle → List Handle
  | 0, _ => []
  | levels + 1, h => h :: (m.owned h).flatMap (m.walkTo levels)

/-- A reflection and all below it, owners first. -/
def walkFrom (m : Model) (h : Handle) : List Handle := m.walkTo m.size h

/-- Every reflection of the project, owners first. -/
def walk (m : Model) : List Handle := m.roots.flatMap m.walkFrom

/-- The reflections of the project that meet a mask. -/
def ofKind (m : Model) (mask : Kind) : List Handle := m.walk.filter fun h => (m.get h).kind.meets mask

/-! ## Going up -/

/-- A reflection and its owners to a number of levels, from the inside out. -/
def enclosingTo (m : Model) : Nat → Handle → List Handle
  | 0, _ => []
  | levels + 1, h =>
    h :: match (m.get h).parent with
      | some p => m.enclosingTo levels p
      | none => []

/-- A reflection and its owners, from the inside out. -/
def enclosing (m : Model) (h : Handle) : List Handle := m.enclosingTo (m.size + 1) h

/-- The nearest module around a reflection, or the reflection itself if it is one. -/
def moduleOf? (m : Model) (h : Handle) : Option Handle :=
  (m.enclosing h).find? fun k => (m.get k).isModule

/-- The nearest class or interface around a reflection, or the reflection itself if it is one; the module
is where the search ends. -/
def containerOf? (m : Model) (h : Handle) : Option Handle :=
  ((m.enclosing h).takeWhile fun k => !(m.get k).isModule).find? fun k => (m.get k).isContainer

end Model

end RefCheck
