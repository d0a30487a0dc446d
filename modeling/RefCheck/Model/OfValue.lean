import RefCheck.Log.Logged
import RefCheck.Model.Outline
import RefCheck.Trace

/-!
# Models of model files

A model file becomes a model in two passes. First its nodes are laid out as reflections, owners before
what they own, so the handle of a node is its place in that order. Then the types that a node names as
extended, implemented or inherited from are linked by their number; a number that no node has belongs to a
declaration outside the model, and its link is dropped. Of several nodes with one number the last counts.

Links can point anywhere, also back and to the node itself, because every number is known before the first
link is made.
-/

namespace RefCheck

open RefCheck.Log

namespace Outline

/-! ## Laying out -/

mutual

/-- How many reflections an outline becomes. -/
def size : Outline → Nat
  | node _ _ signatures children => 1 + sizeAll signatures + sizeAll children

/-- How many reflections several outlines become. -/
def sizeAll : List Outline → Nat
  | [] => 0
  | o :: os => o.size + sizeAll os

end

/-- The handles of outlines that are laid out from a handle on. -/
def handlesFrom (start : Handle) : List Outline → List Handle
  | [] => []
  | o :: os => start :: handlesFrom (start + o.size) os

end Outline

/-- A reflection without links to bases, and the node that they are in. -/
structure Placed where
  /-- The reflection. -/
  reflection : Reflection
  /-- The node. -/
  data : Value
  deriving Inhabited, Repr

namespace Outline

mutual

/-- The reflections of an outline that stands at a handle, owners first. -/
def place (parent : Option Handle) (start : Handle) : Outline → List Placed
  | node head data signatures children =>
    ⟨{ id := head.id, name := head.name, kind := head.kind, comment := head.comment
       sources := head.sources, isStatic := head.isStatic
       signatures := handlesFrom (start + 1) signatures
       children := handlesFrom (start + 1 + sizeAll signatures) children
       bases := [], inheritedFrom := none, parent }, data⟩ ::
      (placeAll (some start) (start + 1) signatures ++
        placeAll (some start) (start + 1 + sizeAll signatures) children)

/-- The reflections of outlines that stand one after another. -/
def placeAll (parent : Option Handle) (start : Handle) : List Outline → List Placed
  | [] => []
  | o :: os => place parent start o ++ placeAll parent (start + o.size) os

end

mutual

/-- The nodes of an outline, each after those that it holds, with the names of their reflections. -/
def innerFirst : Outline → List (String × Value)
  | node head data signatures children =>
    innerFirstAll signatures ++ innerFirstAll children ++ [(head.name, data)]

/-- The nodes of several outlines in this order. -/
def innerFirstAll : List Outline → List (String × Value)
  | [] => []
  | o :: os => innerFirst o ++ innerFirstAll os

end

end Outline

/-! ## Linking -/

/-- The handles by number, in the order of the handles. -/
abbrev Numbering := List (Int × Handle)

/-- The numbers of reflections that stand from a handle on. -/
def numberingFrom (start : Handle) : List Placed → Numbering
  | [] => []
  | p :: ps => (p.reflection.id, start) :: numberingFrom (start + 1) ps

/-- The last handle of a number. -/
def Numbering.handle? (numbering : Numbering) (id : Int) : Option Handle :=
  (numbering.reverse).lookup id

namespace Node

/-- A step of linking a node. -/
inductive LinkStep where
  /-- The reflection extends this one. -/
  | base (h : Handle)
  /-- The reflection extends a declaration outside the model, of this name. -/
  | external (name : Value)
  /-- The reflection repeats this one, or one outside the model. -/
  | inherited (h : Option Handle)
  deriving Inhabited, Repr

/-- The reflection that a type names by its number; a truth value counts as one or zero. -/
def target? (numbering : Numbering) (type : Value) : Except Fault (Option Handle) := do
  match ← type.field "target" .null with
  | .int n => return numbering.handle? n
  | .bool b => return numbering.handle? (if b then 1 else 0)
  | _ => return none

/-- The step for one extended or implemented type. -/
def baseStep (numbering : Numbering) (type : Value) : Except Fault LinkStep := do
  match ← target? numbering type with
  | some h => return .base h
  | none => return .external (← type.field "name" .null)

/-- The fields that name the types which a declaration extends. -/
def baseFields : List String := ["extendedTypes", "implementedTypes"]

/-- The field that names the member which a declaration repeats. -/
def inheritedField : String := "inheritedFrom"

/-- The steps for the types in one field. -/
def baseSteps (numbering : Numbering) (node : Value) (field : String) : Trace LinkStep :=
  .ofResult (fieldItems field (.arr []) node) fun types =>
    .forEach types fun type => .ofResult (baseStep numbering type) .step

/-- The step for the member that a declaration repeats. -/
def inheritedStep (numbering : Numbering) (node : Value) : Trace LinkStep :=
  match node.get? inheritedField with
  | some type =>
    if type.truthy then
      .ofResult (target? numbering type) fun h => .step (.inherited h)
    else .nothing
  | none => .nothing

/-- The steps of linking a node. -/
def links (numbering : Numbering) (node : Value) : Trace LinkStep :=
  (Trace.forEach baseFields (baseSteps numbering node)).andThen (inheritedStep numbering node)

/-- The handle of a base. -/
def LinkStep.base? : LinkStep → Option Handle
  | base h => some h
  | _ => none

/-- The member that is repeated. -/
def LinkStep.inherited? : LinkStep → Option Handle
  | inherited h => h
  | _ => none

/-- What a log tells of a step. -/
def LinkStep.event? (name : String) : LinkStep → Option Event
  | external type =>
    some (.debug "external_base_skipped" [("reflection", .str name), ("base", type)])
  | _ => none

end Node

/-- The reflection with its links. -/
def Placed.linked (numbering : Numbering) (p : Placed) : Reflection :=
  let steps := (Node.links numbering p.data).steps
  { p.reflection with
    bases := steps.filterMap Node.LinkStep.base?
    inheritedFrom := steps.findSome? Node.LinkStep.inherited? }

/-! ## Models -/

/-- The outlines at the top level of a file. -/
def Outline.topLevel (data : Value) : Except Fault (List Outline) := do
  (← (← data.field "children" (.arr [])).items).mapM Outline.ofValue

/-- The name of the project that a file is about. -/
def projectName (data : Value) : Except Fault String := do
  return (← data.field "name" (.str "")).display

namespace Model

/-- The model with its top level replaced by outlines; the reflections that it had keep their handles.
The trace holds what the log tells of linking. -/
def withOutlines (m : Model) (name : String) (outlines : List Outline) : Trace Event × Model :=
  let placed := Outline.placeAll none m.size outlines
  let numbering := numberingFrom m.size placed
  let told := Trace.forEach (Outline.innerFirstAll outlines) fun node =>
    let trace := Node.links numbering node.2
    (⟨trace.steps.filterMap (Node.LinkStep.event? node.1), trace.fault⟩ : Trace Event)
  (told,
    { name
      roots := Outline.handlesFrom m.size outlines
      reflections := m.reflections ++ (placed.map (Placed.linked numbering)).toArray })

/-- The model with its top level replaced by that of a file. -/
def load (m : Model) (data : Value) : Logged Model :=
  match projectName data with
  | .error f => ⟨[], .error f⟩
  | .ok name =>
    match Outline.topLevel data with
    | .error f => ⟨[], .error f⟩
    | .ok outlines =>
      let (told, loaded) := m.withOutlines name outlines
      match told.fault with
      | some f => ⟨told.steps, .error f⟩
      | none => ⟨told.steps, .ok loaded⟩

/-- The model of a file. -/
def ofValue (data : Value) : Logged Model := (empty "").load data

end Model

end RefCheck
