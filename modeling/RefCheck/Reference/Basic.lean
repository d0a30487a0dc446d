/-!
# References

A reference names a declaration the way a comment writes it. It may name a module, a type in it, and a
member of the type; a member is addressed by one of three markers, and the address of a member of a type
may end in a label that picks one of several signatures.

A text that is written in none of these ways is kept as a *loose* reference, which nothing resolves.
-/

namespace RefCheck

/-- How a member is addressed. -/
inductive Marker where
  /-- There is no member. -/
  | none
  /-- A member of instances. -/
  | inst
  /-- A static member. -/
  | static
  /-- An event. -/
  | event
  deriving DecidableEq, Repr, Inhabited

namespace Marker

/-- Every marker. -/
def all : List Marker := [none, inst, static, event]

/-- The text of a marker. -/
def text : Marker → String
  | none => ""
  | inst => "#"
  | static => "."
  | event => "#event:"

end Marker

/-- A parsed reference. -/
structure Reference where
  /-- The text that it was written as, trimmed. -/
  raw : String
  /-- The segments of the module's name, if one is given. -/
  modulePath : Option (List String)
  /-- The name of the type, if one is given. -/
  typeName : Option String
  /-- The name of the member, or the whole text of a loose reference. -/
  memberName : Option String
  /-- How the member is addressed. -/
  marker : Marker
  /-- The label of a signature. -/
  label : Option String
  deriving DecidableEq, Repr, Inhabited

namespace Reference

/-- The reference names its module, so it means the same everywhere. -/
def isAbsolute (r : Reference) : Bool := r.modulePath.isSome

/-- The reference names a type. -/
def hasType (r : Reference) : Bool := r.typeName.isSome

/-- The reference names a member. -/
def hasMember (r : Reference) : Bool := r.marker != .none

/-- The text is written in none of the known ways. -/
def isLoose (r : Reference) : Bool := r.marker == .none && r.memberName.isSome

end Reference

end RefCheck
