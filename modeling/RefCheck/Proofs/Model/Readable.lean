import RefCheck.Proofs.Model.Preorder

/-!
# Files that load

A file loads if each of its nodes can be read. Three things make a node readable.

* It is *shaped*: what is gone through is an array of objects (`Node.IsShaped`).
* It is *complete*: it has its number, its name and its kind, and what is read as a whole number stands for one
  (`Node.IsComplete`).
* It is *plain*: the other fields that are read are objects, or what else they may be (`Node.IsPlain`).

The third is easily forgotten, for nothing is gone through there and nothing is missed if it is not given. Without
it the whole file is kept from loading, by flags that are given as no value for one
(`Model.not_loads_of_not_plain`).

What is loaded is the tree of the file (`Model.ofValue_keeps_tree`).
-/

namespace RefCheck

open RefCheck.Log

/-- An array of objects. -/
def Value.isObjects : Value → Bool
  | .arr items => items.all Value.isObject
  | _ => false

/-- The value stands for a whole number. -/
def Value.isWhole (v : Value) : Bool :=
  match v.whole? with
  | .ok (some _) => true
  | _ => false

/-- What may stand for a comment: no value, a text, or an object. -/
def Value.isComment : Value → Bool
  | .null | .str _ | .obj _ => true
  | _ => false

theorem Value.isWhole_eq_true_iff {v : Value} : v.isWhole = true ↔ ∃ n, v.whole? = .ok (some n) := by
  rw [isWhole]
  split
  · next n h => exact iff_of_true rfl ⟨n, h⟩
  · next hnot => exact iff_of_false Bool.false_ne_true fun ⟨n, h⟩ ↦ hnot n h

namespace Node

/-! ## Nodes that can be read -/

/-- A field is an array of objects where it is given. -/
def holdsObjects (field : String) (node : Value) : Bool := (node.get? field).all Value.isObjects

/-- The fields of a node that are gone through wherever they are given. -/
def arrayFields : List String :=
  ["sources", "signatures", "typeParameters", "parameters", "children", "extendedTypes",
    "implementedTypes"]

/-- The fields that hold a node or an array of them. -/
def accessorFields : List String := ["getSignature", "setSignature"]

/-- What is gone through in a node are arrays of objects. -/
structure IsShaped (node : Value) : Prop where
  isObject : node.isObject = true
  /-- The fields that are gone through wherever they are given. -/
  arrays : ∀ field ∈ arrayFields, holdsObjects field node = true
  /-- The field that is gone through where the type parameters are not given by their usual name. -/
  typeParameter : node.get? "typeParameters" = none → holdsObjects "typeParameter" node = true
  /-- Signatures of accessors, if they are given as arrays. -/
  accessors : ∀ field ∈ accessorFields, ∀ v ∈ node.get? field, ∀ x ∈ oneOrMany (some v),
    x.isObject = true
  /-- A comment in parts. -/
  comment : ∀ c ∈ node.get? "comment", holdsObjects "summary" c = true ∧
    holdsObjects "blockTags" c = true ∧ ∀ tag ∈ nodesAt "blockTags" c, holdsObjects "content" tag = true

/-- A node has what it must have, and what is read as a whole number stands for one. -/
structure IsComplete (node : Value) : Prop where
  id : ∃ v ∈ node.get? "id", v.isWhole = true
  name : (node.get? "name").isSome = true
  kind : ∃ v ∈ node.get? "kind", v.isWhole = true
  lines : ∀ s ∈ nodesAt "sources" node, ∀ v ∈ s.get? "line", v.isWhole = true

/-- The other fields that are read, and not gone through. -/
structure IsPlain (node : Value) : Prop where
  flags : ∀ v ∈ node.get? "flags", v.isObject = true
  /-- A comment is left out, written as a text, or given in parts. -/
  comment : ∀ v ∈ node.get? "comment", v.isComment = true
  /-- Every block tag has its name. -/
  tags : ∀ c ∈ node.get? "comment", ∀ tag ∈ nodesAt "blockTags" c, (tag.get? "tag").isSome = true
  /-- The member that is repeated is named by an object, unless it counts as left out. -/
  inherited : ∀ v ∈ node.get? inheritedField, v.truthy = true → v.isObject = true

section

variable (node : Value)

instance : Decidable (IsShaped node) :=
  decidable_of_iff
    (node.isObject = true ∧ (∀ field ∈ arrayFields, holdsObjects field node = true) ∧
      (node.get? "typeParameters" = none → holdsObjects "typeParameter" node = true) ∧
      (∀ field ∈ accessorFields, ∀ v ∈ node.get? field, ∀ x ∈ oneOrMany (some v),
        x.isObject = true) ∧
      ∀ c ∈ node.get? "comment", holdsObjects "summary" c = true ∧
        holdsObjects "blockTags" c = true ∧
        ∀ tag ∈ nodesAt "blockTags" c, holdsObjects "content" tag = true)
    ⟨fun ⟨h₁, h₂, h₃, h₄, h₅⟩ ↦ ⟨h₁, h₂, h₃, h₄, h₅⟩, fun ⟨h₁, h₂, h₃, h₄, h₅⟩ ↦ ⟨h₁, h₂, h₃, h₄, h₅⟩⟩

instance : Decidable (IsComplete node) :=
  decidable_of_iff
    ((∃ v ∈ node.get? "id", v.isWhole = true) ∧ (node.get? "name").isSome = true ∧
      (∃ v ∈ node.get? "kind", v.isWhole = true) ∧
      ∀ s ∈ nodesAt "sources" node, ∀ v ∈ s.get? "line", v.isWhole = true)
    ⟨fun ⟨h₁, h₂, h₃, h₄⟩ ↦ ⟨h₁, h₂, h₃, h₄⟩, fun ⟨h₁, h₂, h₃, h₄⟩ ↦ ⟨h₁, h₂, h₃, h₄⟩⟩

instance : Decidable (IsPlain node) :=
  decidable_of_iff
    ((∀ v ∈ node.get? "flags", v.isObject = true) ∧
      (∀ v ∈ node.get? "comment", v.isComment = true) ∧
      (∀ c ∈ node.get? "comment", ∀ tag ∈ nodesAt "blockTags" c,
        (tag.get? "tag").isSome = true) ∧
      ∀ v ∈ node.get? inheritedField, v.truthy = true → v.isObject = true)
    ⟨fun ⟨h₁, h₂, h₃, h₄⟩ ↦ ⟨h₁, h₂, h₃, h₄⟩, fun ⟨h₁, h₂, h₃, h₄⟩ ↦ ⟨h₁, h₂, h₃, h₄⟩⟩

end

/-! ## Reading fields -/

/-- A field that is an array of objects is one, or is left out. -/
private theorem eq_nodesAt_of_holdsObjects {field : String} {node : Value}
    (h : holdsObjects field node = true) :
    (node.get? field).getD (.arr []) = .arr (nodesAt field node) ∧
      ∀ x ∈ nodesAt field node, x.isObject = true := by
  rw [holdsObjects] at h
  rw [nodesAt]
  cases hfield : node.get? field with
  | none => exact ⟨rfl, fun x hx ↦ by cases hx⟩
  | some v =>
    rw [hfield] at h
    cases v with
    | arr items => exact ⟨rfl, List.all_eq_true.mp h⟩
    | null | bool | int | float | str | obj => cases h

/-- It has its items. -/
theorem items_getD_eq_ok {field : String} {node : Value} (h : holdsObjects field node = true) :
    ((node.get? field).getD (.arr [])).items = .ok (nodesAt field node) := by
  rw [(eq_nodesAt_of_holdsObjects h).1]
  rfl

theorem isObject_of_mem_nodesAt {field : String} {node : Value} (h : holdsObjects field node = true) :
    ∀ x ∈ nodesAt field node, x.isObject = true := (eq_nodesAt_of_holdsObjects h).2

section

variable {node : Value} (hobject : node.isObject = true)

include hobject

theorem field_eq_ok (key : String) (default : Value) :
    node.field key default = .ok ((node.get? key).getD default) := by
  cases node with
  | obj fields => rfl
  | null | bool | int | float | str | arr => cases hobject

theorem checkRequired_eq_ok {fields : List String}
    (h : ∀ field ∈ fields, (node.get? field).isSome = true) : checkRequired node fields = .ok () := by
  induction fields with
  | nil => rfl
  | cons field fields ih =>
    rw [List.forall_mem_cons] at h
    cases node with
    | obj entries =>
      have hholds : (Value.obj entries).holds field = .ok true := congrArg Except.ok h.1
      rw [checkRequired, hholds]
      exact ih h.2
    | null | bool | int | float | str | arr => cases hobject

/-- A field that is an array of objects is gone through as such. -/
theorem fieldItems_eq_ok {field : String} (h : holdsObjects field node = true) :
    fieldItems field (.arr []) node = .ok (nodesAt field node) := by
  rw [fieldItems, field_eq_ok hobject]
  exact items_getD_eq_ok h

end

theorem wholeField_eq_ok {field : String} {node v : Value} {n : Int} (h : v.whole? = .ok (some n)) :
    wholeField field node v = .ok n := by
  rw [wholeField, h]
  rfl

/-! ## Reading a node -/

theorem exists_source {node value : Value} (hobject : value.isObject = true)
    (hline : ∀ v ∈ value.get? "line", v.isWhole = true) : ∃ s, source node value = .ok s := by
  obtain ⟨n, hn⟩ : ∃ n, ((value.get? "line").getD (.int 0)).whole? = .ok (some n) := by
    cases hget : value.get? "line" with
    | none => exact ⟨0, rfl⟩
    | some v => exact Value.isWhole_eq_true_iff.mp (hline v hget)
  rw [source, field_eq_ok hobject, field_eq_ok hobject, field_eq_ok hobject]
  simp only [bind, Except.bind, wholeField_eq_ok hn]
  exact ⟨_, rfl⟩

/-- The declaration sites of a node can be read. -/
theorem exists_sources {node : Value} (hs : IsShaped node) (hc : IsComplete node) :
    ∃ sources, (nodesAt "sources" node).mapM (source node) = .ok sources := by
  refine exists_mapM_eq_ok_iff.mpr fun s hmem ↦ exists_source ?_ (hc.lines s hmem)
  exact isObject_of_mem_nodesAt (hs.arrays "sources" (by decide)) s hmem

private theorem exists_parts {field : String} {v : Value} (h : holdsObjects field v = true) :
    ∃ parts, Part.listOfValue ((v.get? field).getD (.arr [])) = .ok parts := by
  have hread : ∀ part ∈ nodesAt field v, ∃ p, Part.ofValue part = .ok p := by
    intro part hpart
    have hobject := isObject_of_mem_nodesAt h part hpart
    rw [Part.ofValue, field_eq_ok hobject, field_eq_ok hobject, field_eq_ok hobject]
    exact ⟨_, rfl⟩
  obtain ⟨parts, hparts⟩ := exists_mapM_eq_ok_iff.mpr hread
  exact ⟨parts, Fault.bind_eq_ok_iff.mpr ⟨_, items_getD_eq_ok h, hparts⟩⟩

private theorem exists_blockTag {tag : Value} (hobject : tag.isObject = true)
    (hname : (tag.get? "tag").isSome = true) (hcontent : holdsObjects "content" tag = true) :
    ∃ t, BlockTag.ofValue tag = .ok t := by
  obtain ⟨name, hname⟩ := Option.isSome_iff_exists.mp hname
  obtain ⟨parts, hparts⟩ := exists_parts hcontent
  refine ⟨⟨name, parts⟩, ?_⟩
  rw [BlockTag.ofValue, entry_eq_ok_iff.mpr hname, field_eq_ok hobject]
  simp only [bind, Except.bind, hparts]
  rfl

/-- A comment in parts can be read. -/
private theorem exists_comment_of_isObject {c : Value} (hobject : c.isObject = true)
    (hsummary : holdsObjects "summary" c = true) (hblockTags : holdsObjects "blockTags" c = true)
    (hcontents : ∀ tag ∈ nodesAt "blockTags" c, holdsObjects "content" tag = true)
    (hnames : ∀ tag ∈ nodesAt "blockTags" c, (tag.get? "tag").isSome = true) :
    ∃ comment, Comment.ofValue c = .ok comment := by
  obtain ⟨summary, hsummary⟩ := exists_parts hsummary
  obtain ⟨blockTags, htags⟩ : ∃ blockTags, (nodesAt "blockTags" c).mapM BlockTag.ofValue = .ok blockTags :=
    exists_mapM_eq_ok_iff.mpr fun tag htag ↦ exists_blockTag
      (isObject_of_mem_nodesAt hblockTags tag htag) (hnames tag htag) (hcontents tag htag)
  have hitems := items_getD_eq_ok hblockTags
  cases c with
  | obj fields =>
    refine ⟨some ⟨summary, blockTags⟩, ?_⟩
    rw [Comment.ofValue, field_eq_ok hobject, field_eq_ok hobject]
    · simp only [bind, Except.bind, hsummary, hitems, htags]
      rfl
    · exact fun h ↦ by cases h
    · exact fun s h ↦ by cases h
  | null | bool | int | float | str | arr => cases hobject

/-- The comment of a node can be read. -/
theorem exists_comment {node : Value} (hs : IsShaped node) (hp : IsPlain node) :
    ∃ comment, Comment.ofValue ((node.get? "comment").getD .null) = .ok comment := by
  cases hcomment : node.get? "comment" with
  | none => exact ⟨none, rfl⟩
  | some c =>
    have hkind := hp.comment c hcomment
    obtain ⟨hsummary, hblockTags, hcontents⟩ := hs.comment c hcomment
    have htags := hp.tags c hcomment
    cases c with
    | null => exact ⟨none, rfl⟩
    | str s => exact ⟨_, rfl⟩
    | obj fields => exact exists_comment_of_isObject rfl hsummary hblockTags hcontents htags
    | bool | int | float | arr => cases hkind

/-- **The fields of a node can be read.** -/
theorem exists_head {node : Value} (hs : IsShaped node) (hc : IsComplete node) (hp : IsPlain node) :
    ∃ head, Node.head node = .ok head := by
  have hobject := hs.isObject
  obtain ⟨id, hid, hidWhole⟩ := hc.id
  obtain ⟨kind, hkind, hkindWhole⟩ := hc.kind
  obtain ⟨idNumber, hidNumber⟩ := Value.isWhole_eq_true_iff.mp hidWhole
  obtain ⟨kindNumber, hkindNumber⟩ := Value.isWhole_eq_true_iff.mp hkindWhole
  obtain ⟨name, hname⟩ := Option.isSome_iff_exists.mp hc.name
  obtain ⟨comment, hcomment⟩ := exists_comment hs hp
  obtain ⟨sources, hsources⟩ := exists_sources hs hc
  have hrequired : checkRequired node requiredFields = .ok () := by
    refine checkRequired_eq_ok hobject fun field hfield ↦ ?_
    simp only [requiredFields, List.mem_cons, List.not_mem_nil, or_false] at hfield
    rcases hfield with rfl | rfl | rfl
    · exact Option.isSome_iff_exists.mpr ⟨id, hid⟩
    · exact hc.name
    · exact Option.isSome_iff_exists.mpr ⟨kind, hkind⟩
  have hflags : ((node.get? "flags").getD (.obj [])).isObject = true := by
    cases hget : node.get? "flags" with
    | none => rfl
    | some v => exact hp.flags v hget
  have hitems := items_getD_eq_ok (hs.arrays "sources" (by decide))
  simp only [Node.head, bind, Except.bind, hrequired, entry_eq_ok_iff.mpr hid,
    wholeField_eq_ok hidNumber, entry_eq_ok_iff.mpr hname, entry_eq_ok_iff.mpr hkind,
    wholeField_eq_ok hkindNumber, field_eq_ok hobject, hcomment, hitems, hsources,
    field_eq_ok hflags]
  exact ⟨_, rfl⟩

theorem signatures_eq_ok {node : Value} (hs : IsShaped node) :
    Node.signatures node = .ok (signatureNodes node) := by
  rw [Node.signatures, fieldItems_eq_ok hs.isObject (hs.arrays "signatures" (by decide))]
  rfl

theorem children_eq_ok {node : Value} (hs : IsShaped node) :
    Node.children node = .ok (childNodes node) := by
  have hobject := hs.isObject
  have hfirst : fieldItems "typeParameters" ((node.get? "typeParameter").getD (.arr [])) node
      = .ok (nodesAt (typeParameterField node) node) := by
    rw [fieldItems, field_eq_ok hobject, typeParameterField]
    cases hfield : node.get? "typeParameters" with
    | some v =>
      have hitems := items_getD_eq_ok (hs.arrays "typeParameters" (by decide))
      rw [hfield] at hitems
      rw [Option.isSome_some, if_pos rfl]
      exact hitems
    | none =>
      rw [Option.isSome_none, if_neg Bool.false_ne_true]
      exact items_getD_eq_ok (hs.typeParameter hfield)
  rw [Node.children, field_eq_ok hobject]
  simp only [bind, Except.bind, hfirst,
    fieldItems_eq_ok hobject (hs.arrays "parameters" (by decide)),
    fieldItems_eq_ok hobject (hs.arrays "children" (by decide))]
  rfl

/-! ## Linking a node -/

private theorem exists_target? (numbering : Numbering) {type : Value}
    (hobject : type.isObject = true) : ∃ found, target? numbering type = .ok found := by
  rw [target?_eq, field_eq_ok hobject]
  exact ⟨_, rfl⟩

private theorem exists_baseStep (numbering : Numbering) {type : Value}
    (hobject : type.isObject = true) : ∃ step, baseStep numbering type = .ok step := by
  obtain ⟨found, hfound⟩ := exists_target? numbering hobject
  rw [baseStep, hfound, field_eq_ok hobject]
  cases found <;> exact ⟨_, rfl⟩

/-- **A node that can be read can be linked.** -/
theorem fault_links_eq_none (numbering : Numbering) {node : Value} (hs : IsShaped node)
    (hp : IsPlain node) : (links numbering node).fault = none := by
  rw [links, Trace.fault_andThen_eq_none_iff, Trace.fault_forEach_eq_none_iff]
  constructor
  · intro field hfield
    have hfields : baseFields ⊆ arrayFields := by decide
    have htypes := hs.arrays field (hfields hfield)
    rw [baseSteps, fieldItems_eq_ok hs.isObject htypes]
    refine Trace.fault_forEach_eq_none_iff.mpr fun type htype ↦ ?_
    obtain ⟨step, hstep⟩ := exists_baseStep numbering (isObject_of_mem_nodesAt htypes type htype)
    rw [hstep]
    rfl
  · rw [inheritedStep]
    cases hinherited : node.get? inheritedField with
    | none => rfl
    | some type =>
      dsimp only
      split
      · next htruthy =>
        obtain ⟨found, hfound⟩ := exists_target? numbering (hp.inherited type hinherited htruthy)
        rw [hfound]
        rfl
      · rfl

end Node

namespace Outline

/-- If each node below a node can be read by itself then so can the node with all that is below it. -/
theorem exists_ofValue {v : Value}
    (h : ∀ x ∈ Node.preorder v, Node.IsShaped x ∧ ∃ head, Node.head x = .ok head) :
    ∃ o, ofValue v = .ok o := by
  -- on the depth of the node, for what it holds is less deep
  induction hdepth : v.depth using Nat.strongRecOn generalizing v with
  | ind depth ih =>
    have hread : ∀ {xs : List Value}, (∀ x ∈ xs, x.depth < v.depth) →
        (∀ x ∈ xs, Node.preorder x ⊆ Node.preorder v) → ∃ os, xs.mapM ofValue = .ok os := by
      intro xs hless hbelow
      refine exists_mapM_eq_ok_iff.mpr fun x hx ↦ ih x.depth (hdepth ▸ hless x hx) ?_ rfl
      exact fun y hy ↦ h y (hbelow x hx hy)
    obtain ⟨hshaped, head, hhead⟩ := h v (Node.mem_preorder_self v)
    obtain ⟨signatures, hsignatures⟩ := @hread (Node.signatureNodes v)
      (fun _ hx ↦ Node.depth_lt_of_mem_signatureNodes hx) fun _ hx ↦ Node.preorder_subset (.inl hx)
    obtain ⟨children, hchildren⟩ := @hread (Node.childNodes v)
      (fun _ hx ↦ Node.depth_lt_of_mem_childNodes hx) fun _ hx ↦ Node.preorder_subset (.inr hx)
    exact ⟨_, ofValue_node_iff.mpr ⟨head, _, _, signatures, children, rfl, hhead,
      Node.signatures_eq_ok hshaped, hsignatures, Node.children_eq_ok hshaped, hchildren⟩⟩

mutual

/-- The nodes that are linked are those that are laid out. -/
theorem snd_mem_of_mem_innerFirst : ∀ (o : Outline) {n : String × Value}, n ∈ innerFirst o →
    n.2 ∈ o.nodes.map Prod.snd
  | .node head data signatures children, n, hn => by
    rw [innerFirst, List.mem_append, List.mem_append, List.mem_singleton] at hn
    rw [nodes, List.map_cons, List.map_append, List.mem_cons, List.mem_append]
    rcases hn with (hn | hn) | rfl
    · exact .inr (.inl (snd_mem_of_mem_innerFirstAll signatures hn))
    · exact .inr (.inr (snd_mem_of_mem_innerFirstAll children hn))
    · exact .inl rfl

theorem snd_mem_of_mem_innerFirstAll : ∀ (os : List Outline) {n : String × Value},
    n ∈ innerFirstAll os → n.2 ∈ (nodesAll os).map Prod.snd
  | [], _, hn => by cases hn
  | o :: os, n, hn => by
    rw [innerFirstAll, List.mem_append] at hn
    rw [nodesAll, List.map_append, List.mem_append]
    rcases hn with hn | hn
    · exact .inl (snd_mem_of_mem_innerFirst o hn)
    · exact .inr (snd_mem_of_mem_innerFirstAll os hn)

end

end Outline

/-! ## Files -/

/-- A file whose nodes are shaped and complete. -/
structure IsCompleteFile (data : Value) : Prop where
  isObject : data.isObject = true
  children : Node.holdsObjects "children" data = true
  shaped : ∀ node ∈ fileNodes data, Node.IsShaped node
  complete : ∀ node ∈ fileNodes data, Node.IsComplete node

namespace Model

open Outline

/-- **Files load**, if their nodes are shaped, complete and plain. -/
theorem exists_ofValue {data : Value} (h : IsCompleteFile data)
    (hplain : ∀ node ∈ fileNodes data, Node.IsPlain node) : ∃ told m, ofValue data = ⟨told, .ok m⟩ := by
  obtain ⟨os, hos⟩ : ∃ os, (Node.nodesAt "children" data).mapM Outline.ofValue = .ok os := by
    refine exists_mapM_eq_ok_iff.mpr fun v hv ↦ Outline.exists_ofValue fun x hx ↦ ?_
    have hx : x ∈ fileNodes data := List.mem_flatMap.mpr ⟨v, hv, hx⟩
    exact ⟨h.shaped x hx, Node.exists_head (h.shaped x hx) (h.complete x hx) (hplain x hx)⟩
  have htop : topLevel data = .ok os := by
    rw [topLevel, Node.field_eq_ok h.isObject]
    simp only [bind, Except.bind, Node.items_getD_eq_ok h.children]
    exact hos
  have hname : projectName data = .ok ((data.get? "name").getD (.str "")).display := by
    rw [projectName, Node.field_eq_ok h.isObject]
    rfl
  have hlinks : Links os := by
    intro n hn
    have hnode := snd_mem_of_mem_innerFirstAll os hn
    rw [map_snd_nodesAll os hos] at hnode
    exact Node.fault_links_eq_none _ (h.shaped n.2 hnode) (hplain n.2 hnode)
  obtain ⟨told, hload⟩ := ofValue_eq_ok_iff.mpr ⟨_, os, hname, htop, hlinks, rfl⟩
  exact ⟨told, _, hload⟩

/-! ## The tree of a file -/

/-- A reflection stands below another: it knows that one as its owner, stands once in one of its lists, and is in
the lists of no other. -/
structure StandsBelow (m : Model) (p h : Handle) : Prop where
  parent : (m.get h).parent = some p
  once : (m.get p).signatures.count h + (m.get p).children.count h = 1
  only : ∀ q ∈ m.walk, h ∈ m.owned q → q = p

theorem IsTree.exists_standsBelow {m : Model} (hm : m.IsTree) {h : Handle} (hh : h ∈ m.walk)
    (hroot : h ∉ m.roots) : ∃ p ∈ m.walk, m.StandsBelow p h := by
  obtain ⟨p, hp, howned⟩ := hm.exists_owner hh hroot
  have hparent := hm.parent_owned p hp h howned
  refine ⟨p, hp, hparent, hm.count_add_count_eq_one hp howned, fun q hq hq' ↦ ?_⟩
  exact Option.some.inj ((hm.parent_owned q hq h hq').symm.trans hparent)

/-- **Loading keeps the tree of a file.** If the nodes are shaped, complete and plain then the file is loaded, and
the walk comes once to each node, in order: the reflection there has the number, the name and the kind of the node,
and holds what the node holds. All but the top level stand below one other reflection, and every way up ends at
the top level. -/
theorem ofValue_keeps_tree {data : Value} (h : IsCompleteFile data)
    (hplain : ∀ node ∈ fileNodes data, Node.IsPlain node) :
    ∃ told m, ofValue data = ⟨told, .ok m⟩ ∧
      m.walk.Nodup ∧ m.Unfolds data ∧
      (∀ r ∈ m.walk, (m.get r).head.AgreesWith (nodeOf data r)) ∧
      (∀ r ∈ m.roots, (m.get r).parent = none) ∧
      (∀ r ∈ m.walk, r ∉ m.roots → ∃ p ∈ m.walk, m.StandsBelow p r) ∧
      ∀ r ∈ m.walk, (m.enclosing r).length ≤ m.size ∧
        ∃ top ∈ m.roots, (m.enclosing r).getLast? = some top := by
  obtain ⟨told, m, hload⟩ := exists_ofValue h hplain
  have hm : m.IsTree := isTree_of_load hload
  have hunfolds : m.Unfolds data := unfolds_of_ofValue hload
  exact ⟨told, m, hload, hm.nodup_walk, hunfolds,
    fun r hr ↦ Node.agreesWith_of_head (hunfolds.head r hr), hm.parent_root,
    fun r hr hroot ↦ hm.exists_standsBelow hr hroot,
    fun r hr ↦ ⟨hm.length_enclosing_le hr, hm.exists_root hr⟩⟩

/-- A node with these fields besides those that every node has. -/
def nodeWith (id : Int) (name : String) (kind : Int) (rest : List (String × Value)) : Value :=
  .obj (("id", .int id) :: ("name", .str name) :: ("kind", .int kind) :: rest)

/-- A file of a module with a function, which has a type parameter, and a parameter whose type is written out in
place, and with an accessor that is both read and written. -/
def fileNested : Value :=
  .obj [("name", .str "p"), ("children", .arr [nodeWith 1 "m" 2 [("children", .arr [
    nodeWith 2 "f" 64 [("signatures", .arr [nodeWith 3 "f" 4096 [
      ("parameters", .arr [nodeWith 5 "x" 32768 [("type", .obj [("declaration",
        nodeWith 6 "__type" 65536 [])])]]),
      ("typeParameter", .arr [nodeWith 4 "T" 131072 []])]])],
    nodeWith 7 "a" 262144 [("setSignature", .arr [nodeWith 9 "a" 1048576 []]),
      ("getSignature", nodeWith 8 "a" 524288 [])]])]])]

/-- The number that stands in a node. -/
def number? (node : Value) : Option Int := (node.get? "id").bind fun id ↦ id.whole?.toOption.join

/-- The nodes are numbered in the order in which the walk comes to them. -/
theorem ofValue_keeps_tree_nested :
    IsCompleteFile fileNested ∧ (∀ node ∈ fileNodes fileNested, Node.IsPlain node) ∧
      ∃ told m, ofValue fileNested = ⟨told, .ok m⟩ ∧
        m.walk.map (fun r ↦ (m.get r).id) = [1, 2, 3, 4, 5, 6, 7, 8, 9] := by
  have hreadable : IsCompleteFile fileNested :=
    ⟨rfl, rfl, by decide +kernel, by decide +kernel⟩
  have hplain : ∀ node ∈ fileNodes fileNested, Node.IsPlain node := by decide +kernel
  obtain ⟨told, m, hload, -, hunfolds, hfields, -⟩ := ofValue_keeps_tree hreadable hplain
  have hnumber : ∀ r ∈ m.walk, some (m.get r).id = number? (nodeOf fileNested r) := by
    intro r hr
    obtain ⟨v, hv, hid⟩ := (hfields r hr).id
    simp only [number?]
    rw [hv, Option.bind_some, hid]
    rfl
  refine ⟨hreadable, hplain, told, m, hload, List.map_injective_iff.mpr (fun a b ↦ Option.some.inj) ?_⟩
  calc (m.walk.map fun r ↦ (m.get r).id).map some
      = (m.walk.map (nodeOf fileNested)).map number? := by
        rw [List.map_map, List.map_map]
        exact List.map_congr_left hnumber
    _ = (fileNodes fileNested).map number? := by rw [hunfolds.walk]
    _ = [1, 2, 3, 4, 5, 6, 7, 8, 9].map some := by decide +kernel

/-- A file of one module, whose node has one more field. -/
def fileWith (key : String) (v : Value) : Value :=
  .obj [("name", .str "p"), ("children", .arr [nodeWith 1 "m" 2 [(key, v)]])]

/-- For each way in which a node can fail to be plain, a file of which it keeps the only node. -/
def filesNotPlain : List Value :=
  [fileWith "flags" .null, fileWith "comment" (.bool false),
    fileWith "comment" (.obj [("blockTags", .arr [.obj []])]), fileWith "inheritedFrom" (.str "x")]

/-- Their nodes are shaped and complete, and none of these files loads. -/
theorem not_loads_of_not_plain : filesNotPlain.Forall fun data ↦
    IsCompleteFile data ∧ ¬∃ told m, ofValue data = ⟨told, .ok m⟩ := by
  refine List.forall_iff_forall_mem.mpr fun data hdata ↦ ?_
  have hfile : data.isObject = true ∧ Node.holdsObjects "children" data = true ∧
      (∀ node ∈ fileNodes data, Node.IsShaped node) ∧ (∀ node ∈ fileNodes data, Node.IsComplete node) ∧
      (ofValue data).result.toOption.isNone = true := by
    revert data
    decide +kernel
  obtain ⟨hobject, hchildren, hshaped, hcomplete, hnone⟩ := hfile
  refine ⟨⟨hobject, hchildren, hshaped, hcomplete⟩, ?_⟩
  rintro ⟨told, m, hload⟩
  rw [hload] at hnone
  cases hnone

end Model

end RefCheck
