import RefCheck.Fault.Basic
import RefCheck.Model.Basic
import RefCheck.Text.Split

/-!
# Where a declaration comes from

A declaration is checked if it belongs to the project itself. Declarations of dependencies are told by a
segment of their path; types written out in place, and what they own, are left out too.

A generator gives signatures, parameters and types written out in place no source of their own; theirs is
the source of their owner.
-/

namespace RefCheck

/-- The segments of paths whose declarations are left out, or the fault that asking for them gives. -/
abbrev Excluded := Except Fault (List String)

/-- Dependencies are left out unless settings say otherwise. -/
def defaultExcluded : List String := ["node_modules"]

/-- The name that generators give to a type written out in place. -/
def anonymousName : String := "__type"

namespace Model

/-- What has the source of its owner. -/
def ownerSourced : Kind :=
  ((Kind.signature.or .parameter).or .typeParameter).or .typeLiteral

/-- The source of a chain of owners: the first of the first reflection that has one, as long as those
before it have the source of their owner. -/
def sourceAlong (m : Model) : List Handle → Option Source
  | [] => none
  | h :: hs =>
    match (m.get h).sources with
    | s :: _ => some s
    | [] => if (m.get h).kind.meets ownerSourced then m.sourceAlong hs else none

/-- The reflection has the source of its owner. -/
def asksOwner (m : Model) (h : Handle) : Bool :=
  (m.get h).sources.isEmpty && (m.get h).kind.meets ownerSourced

/-- The way out to a source never ends: a way out that is longer than there are reflections, all of which
have the source of their owner, leads round in a circle. -/
def isLost (m : Model) (h : Handle) : Bool :=
  m.size < (m.enclosing h).length && (m.enclosing h).all m.asksOwner

/-- Where a declaration is written. -/
def sourceOf? (m : Model) (h : Handle) : Option Source := m.sourceAlong (m.enclosing h)

/-- The segments of a path; a backslash separates them as a slash does. -/
def pathSegments (path : String) : List String :=
  (Text.pieces '/' (path.toList.map fun c => if c = '\x5c' then '/' else c)).map String.ofList

/-- Whether a source lies outside every excluded segment. -/
def sourceKept (excluded : Excluded) (s : Source) : Except Fault Bool :=
  match s.path with
  | .str path => do return !(← excluded).any fun e => (pathSegments path).contains e
  | _ => .error (.misshapen .pathNotText)

/-- The declaration is anonymous or belongs to one that is. -/
def isAnonymous (m : Model) (h : Handle) : Bool :=
  (m.get h).name == anonymousName ||
    match (m.get h).parent with
    | some p => (m.get p).name == anonymousName
    | none => false

/-- Whether a declaration belongs to the project itself. -/
def isOwn (m : Model) (excluded : Excluded) (h : Handle) : Except Fault Bool :=
  if m.isAnonymous h then .ok false
  else if m.isLost h then .error .endless
  else
    match m.sourceOf? h with
    | none => .ok false
    | some s => sourceKept excluded s

/-- The items for which a test that may fail holds. -/
def filterM (test : Handle → Except Fault Bool) : List Handle → Except Fault (List Handle)
  | [] => .ok []
  | h :: hs => do
    let keep ← test h
    let rest ← filterM test hs
    return if keep then h :: rest else rest

/-- The declarations of the project itself that meet a mask. -/
def ownOfKind (m : Model) (mask : Kind) (excluded : Excluded) : Except Fault (List Handle) :=
  filterM (m.isOwn excluded) (m.ofKind mask)

end Model

end RefCheck
