import RefCheck.Comment.OfValue
import RefCheck.Data.Whole
import RefCheck.Model.Basic

/-!
# Outlines

A model file nests: the node of a declaration holds the nodes of its signatures and children. An
*outline* is such a node once its own fields are read, with the outlines of what it holds. Links to
other nodes stay unread in it.

A node is read before what it holds, and its signatures before its children, so that of several faults
the one that comes first in this order is reported.
-/

namespace RefCheck

/-- The fields of a node that stand in the node itself. -/
structure Head where
  /-- The number by which other nodes refer to it. -/
  id : Int
  /-- The name. -/
  name : String
  /-- The kind. -/
  kind : Kind
  /-- The comment. -/
  comment : Option Comment
  /-- Where the declaration is written. -/
  sources : List Source
  /-- The declaration belongs to the class itself. -/
  isStatic : Bool
  deriving Inhabited, Repr

/-- A node of a model file with its own fields read. -/
inductive Outline where
  /-- The fields, the value of the node, its signatures and its children. -/
  | node (head : Head) (data : Value) (signatures children : List Outline)
  deriving Inhabited, Repr

namespace Node

/-! ## The fields of a node -/

/-- The fields that a node must have, in the order in which they are missed. -/
def requiredFields : List String := ["id", "name", "kind"]

/-- How a node is named in a message: by its name, by its number, or not at all. -/
def describe (node : Value) : Except Fault String := do
  if ← node.holds "name" then return (← node.entry "name").quoted
  if ← node.holds "id" then return "#" ++ (← node.entry "id").display
  return "<anonymous>"

/-- Fails if a required field is missing. -/
def checkRequired (node : Value) : List String → Except Fault Unit
  | [] => .ok ()
  | field :: fields => do
    if ← node.holds field then checkRequired node fields
    else throw (.problem (.fieldMissing (.str field) (.str (← describe node))))

/-- The whole number in a field, or a problem that names the field and its node. -/
def wholeField (field : String) (node value : Value) : Except Fault Int := do
  match ← value.whole? with
  | some n => return n
  | none => throw (.problem (.fieldInvalid (.str field) (.str (← describe node)) value))

/-- One declaration site. -/
def source (node value : Value) : Except Fault Source := do
  let fileName ← value.field "fileName" (.str "")
  let line ← wholeField "line" node (← value.field "line" (.int 0))
  let fullFileName ← value.field "fullFileName" .null
  return ⟨fileName.display, line, fullFileName⟩

/-- The fields of a node. -/
def head (node : Value) : Except Fault Head := do
  checkRequired node requiredFields
  let id ← wholeField "id" node (← node.entry "id")
  let name ← node.entry "name"
  let kind ← wholeField "kind" node (← node.entry "kind")
  let comment ← Comment.ofValue (← node.field "comment" .null)
  let sources ← (← (← node.field "sources" (.arr [])).items).mapM (source node)
  let isStatic ← (← node.field "flags" (.obj [])).field "isStatic" (.bool false)
  return ⟨id, name.display, .ofInt kind, comment, sources, isStatic.truthy⟩

/-! ## What a node holds -/

/-- The items of a field, or those of `default` where it is missing. -/
def fieldItems (field : String) (default node : Value) : Except Fault (List Value) := do
  (← node.field field default).items

/-- The node or nodes of a field that holds either; any other value holds none. -/
def oneOrMany : Option Value → List Value
  | some (.obj fields) => [.obj fields]
  | some (.arr items) => items
  | _ => []

/-- The nodes of the signatures. -/
def signatures (node : Value) : Except Fault (List Value) := do
  let plain ← fieldItems "signatures" (.arr []) node
  return plain ++ oneOrMany (node.get? "getSignature") ++ oneOrMany (node.get? "setSignature")

/-- The node of a type written out in place. -/
def typeDeclaration (node : Value) : List Value :=
  match (node.get? "type").bind (Value.get? "declaration") with
  | some (.obj fields) => [.obj fields]
  | _ => []

/-- The nodes of the children: type parameters, parameters, members, and a type written out. -/
def children (node : Value) : Except Fault (List Value) := do
  let typeParameters ← fieldItems "typeParameters" (← node.field "typeParameter" (.arr [])) node
  let parameters ← fieldItems "parameters" (.arr []) node
  let members ← fieldItems "children" (.arr []) node
  return typeParameters ++ parameters ++ members ++ typeDeclaration node

/-! ### Nodes within are less deep -/

theorem depth_lt_of_mem_fieldItems {field : String} {default node x : Value} {xs : List Value}
    (hd : default.depth < node.depth ∨ default = .arr [])
    (h : fieldItems field default node = .ok xs) (hx : x ∈ xs) : x.depth < node.depth := by
  cases node with
  | obj fields =>
    simp only [fieldItems, Value.field, bind, Except.bind] at h
    cases hl : fields.lookup field with
    | some v =>
      rw [hl] at h
      have h1 := Value.depth_le_of_mem_items h hx
      have h2 := Value.depth_lt_of_get? (v := .obj fields) hl
      simp only [Option.getD_some] at h1
      omega
    | none =>
      rw [hl] at h
      have h1 := Value.depth_le_of_mem_items h hx
      simp only [Option.getD_none] at h1
      rcases hd with hd | hd
      · omega
      · subst hd
        simp only [Option.getD_none, Value.items, Except.ok.injEq] at h
        subst h
        cases hx
  | _ => simp [fieldItems, Value.field, bind, Except.bind] at h

theorem depth_lt_of_mem_oneOrMany {key : String} {node x : Value}
    (hx : x ∈ oneOrMany (node.get? key)) : x.depth < node.depth := by
  cases hg : node.get? key with
  | none => rw [hg] at hx; simp [oneOrMany] at hx
  | some v =>
    have hv := Value.depth_lt_of_get? hg
    rw [hg] at hx
    cases v with
    | obj fields =>
      simp only [oneOrMany, List.mem_singleton] at hx
      exact hx ▸ hv
    | arr items =>
      simp only [oneOrMany] at hx
      have := Value.depth_le_itemsDepth hx
      simp only [Value.depth] at hv
      omega
    | _ => simp [oneOrMany] at hx

theorem depth_lt_of_mem_signatures {node x : Value} {xs : List Value}
    (h : signatures node = .ok xs) (hx : x ∈ xs) : x.depth < node.depth := by
  simp only [signatures, bind, Except.bind] at h
  split at h
  · cases h
  · next plain hp =>
    cases h
    rcases List.mem_append.1 hx with hx | hx
    · rcases List.mem_append.1 hx with hx | hx
      · exact depth_lt_of_mem_fieldItems (.inr rfl) hp hx
      · exact depth_lt_of_mem_oneOrMany hx
    · exact depth_lt_of_mem_oneOrMany hx

theorem depth_lt_of_mem_typeDeclaration {node x : Value} (hx : x ∈ typeDeclaration node) :
    x.depth < node.depth := by
  unfold typeDeclaration at hx
  split at hx
  · next fields hf =>
    obtain ⟨v, hv, hw⟩ := Option.bind_eq_some_iff.1 hf
    have h1 := Value.depth_lt_of_get? hv
    have h2 := Value.depth_lt_of_get? hw
    rw [List.mem_singleton.1 hx]
    omega
  · cases hx

theorem depth_lt_of_mem_children {node x : Value} {xs : List Value}
    (h : children node = .ok xs) (hx : x ∈ xs) : x.depth < node.depth := by
  cases node with
  | obj fields =>
    simp only [children, bind, Except.bind] at h
    split at h
    · cases h
    · next default hdef =>
      have hd : default.depth < (Value.obj fields).depth ∨ default = .arr [] := by
        simp only [Value.field, Except.ok.injEq] at hdef
        cases hl : fields.lookup "typeParameter" with
        | some v =>
          rw [hl, Option.getD_some] at hdef
          subst hdef
          exact .inl (Value.depth_lt_of_get? (v := .obj fields) hl)
        | none =>
          rw [hl, Option.getD_none] at hdef
          exact .inr hdef.symm
      split at h
      · cases h
      · next typeParameters htp =>
        split at h
        · cases h
        · next parameters hps =>
          split at h
          · cases h
          · next members hms =>
            cases h
            simp only [List.mem_append] at hx
            rcases hx with ((hx | hx) | hx) | hx
            · exact depth_lt_of_mem_fieldItems hd htp hx
            · exact depth_lt_of_mem_fieldItems (.inr rfl) hps hx
            · exact depth_lt_of_mem_fieldItems (.inr rfl) hms hx
            · exact depth_lt_of_mem_typeDeclaration hx
  | _ => simp [children, Value.field, bind, Except.bind] at h

end Node

namespace Outline

/-! ## Reading a node -/

/-- The outline of a node. -/
def ofValue (node : Value) : Except Fault Outline :=
  match Node.head node with
  | .error f => .error f
  | .ok head =>
    match _hs : Node.signatures node with
    | .error f => .error f
    | .ok sigs =>
      match sigs.attach.mapM fun ⟨x, _⟩ => ofValue x with
      | .error f => .error f
      | .ok signatures =>
        match _hc : Node.children node with
        | .error f => .error f
        | .ok kids =>
          match kids.attach.mapM fun ⟨x, _⟩ => ofValue x with
          | .error f => .error f
          | .ok children => .ok (.node head node signatures children)
termination_by node.depth
decreasing_by
  · exact Node.depth_lt_of_mem_signatures _hs (by assumption)
  · exact Node.depth_lt_of_mem_children _hc (by assumption)

end Outline

end RefCheck
