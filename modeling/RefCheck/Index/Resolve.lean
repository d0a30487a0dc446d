import RefCheck.Index.Basic
import RefCheck.Reference.Grammar

/-!
# Resolving references

A reference is resolved from the declaration whose comment holds it, its *context*.

* Its *scope* is what it names before the member: with a module, what that module exports; with a type
  alone, what the module around the context exports; with neither, the class around the context.
* Without a member the scope is the answer. With one, the answer is the member or event of the scope, and
  a label picks the signature that carries it.

A loose reference resolves to nothing. Tables come from the index; owners and signatures are those that
the model has now.
-/

namespace RefCheck.Index

open RefCheck.Log

/-- What a reference names before its member. -/
def scope? (ix : Index) (m : Model) (r : Reference) (context : Handle) : Option Handle :=
  match r.modulePath, r.typeName with
  | some path, type => ix.export? path type
  | none, some type =>
    (m.moduleOf? context).bind fun h => ix.export? (m.get h).modulePath (some type)
  | none, none => m.containerOf? context

/-- The first signature of a member that carries a label. -/
def labelled? (m : Model) (member : Handle) (label : String) : Option Handle :=
  (m.get member).signatures.find? fun s => (m.get s).label? == some label

/-- What a reference names in its scope. -/
def inScope? (ix : Index) (m : Model) (r : Reference) (scope : Handle) : Option Handle :=
  let name := r.memberName.getD ""
  match r.marker with
  | .none => some scope
  | .event => ix.event? scope name
  | marker =>
    match ix.member? scope name marker, r.label with
    | some member, some label => labelled? m member label
    | found, _ => found

/-- What a reference names. -/
def resolve? (ix : Index) (m : Model) (r : Reference) (context : Handle) : Option Handle :=
  if r.isLoose then none else (ix.scope? m r context).bind (ix.inScope? m r)

/-- What a text names, if it is a reference. -/
def resolveText? (ix : Index) (m : Model) (text : String) (context : Handle) : Option Handle :=
  (Reference.parse? text).bind fun r => ix.resolve? m r context

/-- What a log tells of resolving a reference: a type alone was asked for outside any module. -/
def resolveEvents (m : Model) (r : Reference) (context : Handle) : List Event :=
  if !r.isLoose && r.modulePath.isNone && r.typeName.isSome && (m.moduleOf? context).isNone then
    [.debug "no_enclosing_module" [("context", .str (m.get context).name), ("ref", .str r.raw)]]
  else []

end RefCheck.Index
