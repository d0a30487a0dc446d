import RefCheck.Proofs.Model.Rearranged

/-!
# The nodes of a file in order

A node holds others in several fields, some of which have two spellings or two shapes. `Node.signatureNodes` and
`Node.childNodes` say which they are, in order, and `Node.preorder` goes down from a node: the node itself, then
what is below its signatures, then what is below its children. None of this says what is read of a node or how it
is laid out, and none of it can fail.

What loads is laid out in this order. The handles of a model are the places of the nodes in the list of all of
them (`fileNodes`), so the node of a reflection is the one at its handle (`nodeOf`), and a model *unfolds* its file
(`Model.Unfolds`): the walk comes to the nodes one after another, and each reflection says what its node does. That
every model does so is `Model.unfolds_of_ofValue`.
-/

namespace RefCheck

open RefCheck.Log

/-- The number, the name and the kind are those that stand in a node. -/
structure Head.AgreesWith (head : Head) (node : Value) : Prop where
  id : ∃ v ∈ node.get? "id", v.whole? = .ok (some head.id)
  name : ∃ v ∈ node.get? "name", head.name = v.display
  kind : ∃ v ∈ node.get? "kind", ∃ n, v.whole? = .ok (some n) ∧ head.kind = .ofInt n

namespace Node

/-! ## What a node holds -/

/-- The items of an array. -/
def arrayItems : Option Value → List Value
  | some (.arr items) => items
  | _ => []

/-- The nodes in a field that holds an array of them. -/
def nodesAt (field : String) (node : Value) : List Value := arrayItems (node.get? field)

/-- The nodes of the signatures: those of a function, and those that read and write an accessor. -/
def signatureNodes (node : Value) : List Value :=
  nodesAt "signatures" node ++ oneOrMany (node.get? "getSignature") ++
    oneOrMany (node.get? "setSignature")

/-- The field of the type parameters; that of older files counts where the other is missing. -/
def typeParameterField (node : Value) : String :=
  if (node.get? "typeParameters").isSome then "typeParameters" else "typeParameter"

/-- The nodes of the children: type parameters, parameters, members, and a type written out in place. -/
def childNodes (node : Value) : List Value :=
  nodesAt (typeParameterField node) node ++ nodesAt "parameters" node ++ nodesAt "children" node ++
    typeDeclaration node

theorem arrayItems_subset (v : Option Value) : arrayItems v ⊆ oneOrMany v := by
  unfold arrayItems
  split
  · exact List.Subset.refl _
  · exact List.nil_subset _

theorem depth_lt_of_mem_nodesAt {field : String} {node x : Value} (hx : x ∈ nodesAt field node) :
    x.depth < node.depth := depth_lt_of_mem_oneOrMany (arrayItems_subset _ hx)

theorem depth_lt_of_mem_signatureNodes {node x : Value} (hx : x ∈ signatureNodes node) :
    x.depth < node.depth := by
  rw [signatureNodes, List.mem_append, List.mem_append] at hx
  rcases hx with (hx | hx) | hx
  · exact depth_lt_of_mem_nodesAt hx
  · exact depth_lt_of_mem_oneOrMany hx
  · exact depth_lt_of_mem_oneOrMany hx

theorem depth_lt_of_mem_childNodes {node x : Value} (hx : x ∈ childNodes node) :
    x.depth < node.depth := by
  rw [childNodes, List.mem_append, List.mem_append, List.mem_append] at hx
  rcases hx with ((hx | hx) | hx) | hx
  · exact depth_lt_of_mem_nodesAt hx
  · exact depth_lt_of_mem_nodesAt hx
  · exact depth_lt_of_mem_nodesAt hx
  · exact depth_lt_of_mem_typeDeclaration hx

/-- A node and all below it: the node, then those of its signatures, then those of its children. -/
def preorder (node : Value) : List Value :=
  node :: (((signatureNodes node).attach.flatMap fun x ↦ preorder x.1) ++
    (childNodes node).attach.flatMap fun x ↦ preorder x.1)
termination_by node.depth
decreasing_by
  · exact depth_lt_of_mem_signatureNodes x.2
  · exact depth_lt_of_mem_childNodes x.2

theorem preorder_eq (node : Value) : preorder node = node ::
    ((signatureNodes node).flatMap preorder ++ (childNodes node).flatMap preorder) := by
  have hattach : ∀ xs : List Value, (xs.attach.flatMap fun x ↦ preorder x.1) = xs.flatMap preorder := by
    intro xs
    rw [List.flatMap_subtype fun _ _ ↦ rfl, List.unattach_attach]
  rw [preorder, hattach, hattach]

theorem mem_preorder_self (node : Value) : node ∈ preorder node := by
  rw [preorder_eq]
  exact List.mem_cons_self

/-- What is below a node that another holds is below the other. -/
theorem preorder_subset {node x : Value} (hx : x ∈ signatureNodes node ∨ x ∈ childNodes node) :
    preorder x ⊆ preorder node := by
  intro y hy
  rw [preorder_eq node, List.mem_cons, List.mem_append, List.mem_flatMap, List.mem_flatMap]
  rcases hx with hx | hx
  · exact .inr (.inl ⟨x, hx, hy⟩)
  · exact .inr (.inr ⟨x, hx, hy⟩)

/-! ## What is read of a node -/

theorem isObject_of_head {node : Value} {head : Head} (h : Node.head node = .ok head) :
    node.isObject = true := by
  obtain ⟨-, -, h⟩ := Fault.bind_eq_ok_iff.mp h
  obtain ⟨id, hid, -⟩ := Fault.bind_eq_ok_iff.mp h
  cases node with
  | obj fields => rfl
  | null | bool | int | float | str | arr => cases hid

theorem entry_eq_ok_iff {node v : Value} {key : String} :
    node.entry key = .ok v ↔ node.get? key = some v := by
  cases node with
  | obj fields =>
    rw [Value.entry, Value.get?]
    cases fields.lookup key with
    | none => exact iff_of_false (fun h ↦ by cases h) fun h ↦ by cases h
    | some w => rw [Except.ok.injEq, Option.some.injEq]
  | null | bool | int | float | str | arr =>
    exact iff_of_false (fun h ↦ by cases h) fun h ↦ by cases h

private theorem whole?_of_wholeField {field : String} {node v : Value} {n : Int}
    (h : wholeField field node v = .ok n) : v.whole? = .ok (some n) := by
  obtain ⟨found, hfound, h⟩ := Fault.bind_eq_ok_iff.mp h
  cases found with
  | none =>
    obtain ⟨_, -, h⟩ := Fault.bind_eq_ok_iff.mp h
    cases h
  | some k =>
    cases h
    exact hfound

/-- What is read of a node agrees with it. -/
theorem agreesWith_of_head {node : Value} {head : Head} (h : Node.head node = .ok head) :
    head.AgreesWith node := by
  obtain ⟨-, -, h⟩ := Fault.bind_eq_ok_iff.mp h
  obtain ⟨id, hid, h⟩ := Fault.bind_eq_ok_iff.mp h
  obtain ⟨idNumber, hidNumber, h⟩ := Fault.bind_eq_ok_iff.mp h
  obtain ⟨name, hname, h⟩ := Fault.bind_eq_ok_iff.mp h
  obtain ⟨kind, hkind, h⟩ := Fault.bind_eq_ok_iff.mp h
  obtain ⟨kindNumber, hkindNumber, h⟩ := Fault.bind_eq_ok_iff.mp h
  -- what is read after these three has no part in it
  obtain ⟨_, -, h⟩ := Fault.bind_eq_ok_iff.mp h
  obtain ⟨_, -, h⟩ := Fault.bind_eq_ok_iff.mp h
  obtain ⟨_, -, h⟩ := Fault.bind_eq_ok_iff.mp h
  obtain ⟨_, -, h⟩ := Fault.bind_eq_ok_iff.mp h
  obtain ⟨_, -, h⟩ := Fault.bind_eq_ok_iff.mp h
  obtain ⟨_, -, h⟩ := Fault.bind_eq_ok_iff.mp h
  obtain ⟨_, -, h⟩ := Fault.bind_eq_ok_iff.mp h
  cases h
  exact ⟨⟨id, entry_eq_ok_iff.mp hid, whole?_of_wholeField hidNumber⟩,
    ⟨name, entry_eq_ok_iff.mp hname, rfl⟩,
    kind, entry_eq_ok_iff.mp hkind, kindNumber, whole?_of_wholeField hkindNumber, rfl⟩

/-- Items that are objects are those of an array. -/
private theorem eq_arrayItems {v : Value} {xs : List Value} (h : v.items = .ok xs)
    (hobject : ∀ x ∈ xs, x.isObject = true) : xs = arrayItems (some v) := by
  cases v with
  | arr items => exact (Except.ok.inj h).symm
  | obj fields =>
    cases fields with
    | nil => exact (Except.ok.inj h).symm
    | cons field fields =>
      cases h
      cases hobject _ List.mem_cons_self
  | str s =>
    cases hs : s.toList with
    | nil =>
      rw [Value.items, hs] at h
      exact (Except.ok.inj h).symm
    | cons c cs =>
      rw [Value.items, hs] at h
      cases h
      cases hobject _ List.mem_cons_self
  | null | bool | int | float => cases h

private theorem eq_arrayItems_of_fieldItems {field : String} {default node : Value}
    {xs : List Value} (h : fieldItems field default node = .ok xs)
    (hobject : ∀ x ∈ xs, x.isObject = true) :
    xs = arrayItems (some ((node.get? field).getD default)) := by
  obtain ⟨v, hv, hitems⟩ := Fault.bind_eq_ok_iff.mp h
  cases node with
  | obj fields =>
    cases hv
    exact eq_arrayItems hitems hobject
  | null | bool | int | float | str | arr => cases hv

private theorem arrayItems_getD (v : Option Value) :
    arrayItems (some (v.getD (.arr []))) = arrayItems v := by
  cases v <;> rfl

theorem eq_nodesAt {field : String} {node : Value} {xs : List Value}
    (h : fieldItems field (.arr []) node = .ok xs) (hobject : ∀ x ∈ xs, x.isObject = true) :
    xs = nodesAt field node :=
  (eq_arrayItems_of_fieldItems h hobject).trans (arrayItems_getD _)

/-- Nodes of signatures that are objects are all that a node holds as such. -/
theorem eq_signatureNodes {node : Value} {xs : List Value} (h : Node.signatures node = .ok xs)
    (hobject : ∀ x ∈ xs, x.isObject = true) : xs = signatureNodes node := by
  obtain ⟨plain, hplain, h⟩ := Fault.bind_eq_ok_iff.mp h
  cases h
  rw [signatureNodes, ← eq_nodesAt hplain fun x hx ↦
    hobject x (List.mem_append_left _ (List.mem_append_left _ hx))]

/-- So are nodes of children. -/
theorem eq_childNodes {node : Value} {xs : List Value} (h : Node.children node = .ok xs)
    (hobject : ∀ x ∈ xs, x.isObject = true) : xs = childNodes node := by
  obtain ⟨default, hdefault, h⟩ := Fault.bind_eq_ok_iff.mp h
  obtain ⟨typeParameters, htypeParameters, h⟩ := Fault.bind_eq_ok_iff.mp h
  obtain ⟨parameters, hparameters, h⟩ := Fault.bind_eq_ok_iff.mp h
  obtain ⟨members, hmembers, h⟩ := Fault.bind_eq_ok_iff.mp h
  cases h
  simp only [List.forall_mem_append] at hobject
  obtain ⟨⟨⟨htypeObjects, hparameterObjects⟩, hmemberObjects⟩, -⟩ := hobject
  have hfirst : typeParameters = nodesAt (typeParameterField node) node := by
    rw [eq_arrayItems_of_fieldItems htypeParameters htypeObjects, nodesAt, typeParameterField]
    have hget : node.field "typeParameter" (.arr []) = .ok default := hdefault
    cases node with
    | obj fields =>
      cases hget
      cases hfield : (Value.obj fields).get? "typeParameters" with
      | some v =>
        rw [Option.isSome_some, if_pos rfl, hfield]
        rfl
      | none =>
        rw [Option.isSome_none, if_neg Bool.false_ne_true]
        exact arrayItems_getD _
    | null | bool | int | float | str | arr => cases hget
  rw [childNodes, ← hfirst, ← eq_nodesAt hparameters hparameterObjects,
    ← eq_nodesAt hmembers hmemberObjects]

end Node

namespace Outline

theorem isObject_of_ofValue {v : Value} {o : Outline} (h : ofValue v = .ok o) : v.isObject = true := by
  obtain ⟨head, -, -, -, -, -, hhead, -⟩ := ofValue_node_iff.mp h
  exact Node.isObject_of_head hhead

/-- **What is read as an outline**: the node itself, and all that it holds. -/
theorem ofValue_eq_ok {v : Value} {o : Outline} (h : ofValue v = .ok o) :
    ∃ head signatures children, o = .node head v signatures children ∧ Node.head v = .ok head ∧
      (Node.signatureNodes v).mapM ofValue = .ok signatures ∧
      (Node.childNodes v).mapM ofValue = .ok children := by
  have hobject : ∀ {xs : List Value} {os : List Outline}, xs.mapM ofValue = .ok os →
      ∀ x ∈ xs, x.isObject = true := by
    intro xs os hos x hx
    obtain ⟨o, ho⟩ := exists_mapM_eq_ok_iff.mp ⟨os, hos⟩ x hx
    exact isObject_of_ofValue ho
  obtain ⟨head, sigNodes, kidNodes, signatures, children, rfl, hhead, hsigNodes, hsignatures,
    hkidNodes, hchildren⟩ := ofValue_node_iff.mp h
  rw [Node.eq_signatureNodes hsigNodes (hobject hsignatures)] at hsignatures
  rw [Node.eq_childNodes hkidNodes (hobject hchildren)] at hchildren
  exact ⟨head, signatures, children, rfl, hhead, hsignatures, hchildren⟩

mutual

/-- The nodes of an outline are those below the node that it is read from, in the same order. -/
theorem map_snd_nodes : ∀ (o : Outline) {v : Value}, ofValue v = .ok o →
    o.nodes.map Prod.snd = Node.preorder v
  | .node head data signatures children, v, h => by
    obtain ⟨_, _, _, heq, -, hsignatures, hchildren⟩ := ofValue_eq_ok h
    cases heq
    rw [nodes, List.map_cons, List.map_append, map_snd_nodesAll signatures hsignatures,
      map_snd_nodesAll children hchildren, Node.preorder_eq]

theorem map_snd_nodesAll : ∀ (os : List Outline) {vs : List Value}, vs.mapM ofValue = .ok os →
    (nodesAll os).map Prod.snd = vs.flatMap Node.preorder
  | [], [], _ => rfl
  | [], v :: vs, h => by
    obtain ⟨_, _, -, -, heq⟩ := mapM_cons_eq_ok_iff.mp h
    cases heq
  | o :: os, [], h => by cases h
  | o :: os, v :: vs, h => by
    obtain ⟨_, _, ho, hos, heq⟩ := mapM_cons_eq_ok_iff.mp h
    cases heq
    rw [nodesAll, List.map_append, map_snd_nodes o ho, map_snd_nodesAll os hos, List.flatMap_cons]

end

/-! ## Nodes at their handles -/

/-- From a handle on, these values stand one after another. -/
def StandsAt (D : Handle → Value) (start : Nat) (values : List Value) : Prop :=
  (List.range' start values.length).map D = values

variable {D : Handle → Value}

theorem standsAt_cons_iff {start : Nat} {v : Value} {vs : List Value} :
    StandsAt D start (v :: vs) ↔ D start = v ∧ StandsAt D (start + 1) vs := by
  rw [StandsAt, List.length_cons, List.range'_succ, List.map_cons, List.cons.injEq, StandsAt]

theorem standsAt_append_iff {start : Nat} {vs ws : List Value} :
    StandsAt D start (vs ++ ws) ↔ StandsAt D start vs ∧ StandsAt D (start + vs.length) ws := by
  rw [StandsAt, List.length_append, ← List.range'_append_1, List.map_append, StandsAt, StandsAt]
  constructor
  · exact fun h ↦ List.append_inj h (by rw [List.length_map, List.length_range'])
  · rintro ⟨hvs, hws⟩
    rw [hvs, hws]

theorem length_nodes (o : Outline) : o.nodes.length = o.size := by
  rw [← map_place o none 0, List.length_map, length_place]

/-- The handles of outlines lead to the nodes that they are read from. -/
theorem map_handlesFrom {start : Nat} {vs : List Value} {os : List Outline}
    (hos : vs.mapM ofValue = .ok os) (hD : StandsAt D start ((nodesAll os).map Prod.snd)) :
    (handlesFrom start os).map D = vs := by
  induction vs generalizing start os with
  | nil =>
    cases hos
    rfl
  | cons v vs ih =>
    obtain ⟨o, rest, ho, hrest, rfl⟩ := mapM_cons_eq_ok_iff.mp hos
    rw [nodesAll, List.map_append, standsAt_append_iff, List.length_map, length_nodes,
      map_snd_nodes o ho, Node.preorder_eq, standsAt_cons_iff] at hD
    obtain ⟨⟨hself, -⟩, hD⟩ := hD
    rw [handlesFrom, List.map_cons, hself, ih hrest hD]

end Outline

/-- The fields of a reflection that stand in its node. -/
def Reflection.head (r : Reflection) : Head := ⟨r.id, r.name, r.kind, r.comment, r.sources, r.isStatic⟩

/-- What is laid out says what its node does. -/
structure Placed.IsFaithful (D : Handle → Value) (p : Placed) : Prop where
  head : Node.head p.data = .ok p.reflection.head
  signatures : p.reflection.signatures.map D = Node.signatureNodes p.data
  children : p.reflection.children.map D = Node.childNodes p.data

namespace Outline

variable {D : Handle → Value}

mutual

/-- What is laid out for a node, and for all below it, says what the nodes do. -/
theorem isFaithful_of_mem_place : ∀ (o : Outline) {v : Value} {parent : Option Handle} {start : Nat},
    ofValue v = .ok o → StandsAt D start (o.nodes.map Prod.snd) →
      ∀ p ∈ place parent start o, p.IsFaithful D
  | .node head data signatures children, v, parent, start, h, hD, p, hp => by
    obtain ⟨_, _, _, heq, hhead, hsignatures, hchildren⟩ := ofValue_eq_ok h
    cases heq
    rw [nodes, List.map_cons, standsAt_cons_iff, List.map_append, standsAt_append_iff,
      List.length_map, length_nodesAll] at hD
    obtain ⟨-, hsigs, hkids⟩ := hD
    rw [place, List.mem_cons, List.mem_append] at hp
    rcases hp with rfl | hp | hp
    · exact ⟨hhead, map_handlesFrom hsignatures hsigs, map_handlesFrom hchildren hkids⟩
    · exact isFaithful_of_mem_placeAll signatures hsignatures hsigs p hp
    · exact isFaithful_of_mem_placeAll children hchildren hkids p hp

theorem isFaithful_of_mem_placeAll : ∀ (os : List Outline) {vs : List Value} {parent : Option Handle}
    {start : Nat}, vs.mapM ofValue = .ok os → StandsAt D start ((nodesAll os).map Prod.snd) →
      ∀ p ∈ placeAll parent start os, p.IsFaithful D
  | [], _, _, _, _, _, _, hp => by cases hp
  | o :: os, [], _, _, h, _, _, _ => by cases h
  | o :: os, v :: vs, parent, start, h, hD, p, hp => by
    obtain ⟨_, _, ho, hos, heq⟩ := mapM_cons_eq_ok_iff.mp h
    cases heq
    rw [nodesAll, List.map_append, standsAt_append_iff, List.length_map, length_nodes] at hD
    rw [placeAll, List.mem_append] at hp
    rcases hp with hp | hp
    · exact isFaithful_of_mem_place o ho hD.1 p hp
    · exact isFaithful_of_mem_placeAll os hos hD.2 p hp

end

end Outline

/-! ## Files -/

/-- Every node of a file, in the order in which they are read. -/
def fileNodes (data : Value) : List Value := (Node.nodesAt "children" data).flatMap Node.preorder

/-- The node of a file at a handle. -/
def nodeOf (data : Value) (h : Handle) : Value := (fileNodes data)[h]?.getD .null

theorem standsAt_nodeOf (data : Value) : Outline.StandsAt (nodeOf data) 0 (fileNodes data) := by
  refine List.ext_getElem? fun i ↦ ?_
  rw [List.getElem?_map]
  by_cases hi : i < (fileNodes data).length
  · rw [List.getElem?_range' hi, Nat.one_mul, Nat.zero_add, Option.map_some, nodeOf,
      List.getElem?_eq_getElem hi, Option.getD_some]
  · rw [List.getElem?_eq_none (Nat.not_lt.mp hi), List.getElem?_eq_none, Option.map_none]
    rw [List.length_range']
    exact Nat.not_lt.mp hi

/-- A model unfolds a file. -/
structure Model.Unfolds (m : Model) (data : Value) : Prop where
  /-- The walk comes to the nodes of the file, one after another. -/
  walk : m.walk.map (nodeOf data) = fileNodes data
  /-- The top level is that of the file. -/
  roots : m.roots.map (nodeOf data) = Node.nodesAt "children" data
  /-- A reflection has the fields of its node. -/
  head : ∀ h ∈ m.walk, Node.head (nodeOf data h) = .ok (m.get h).head
  /-- Its signatures are those of its node. -/
  signatures : ∀ h ∈ m.walk,
    (m.get h).signatures.map (nodeOf data) = Node.signatureNodes (nodeOf data h)
  /-- So are its children. -/
  children : ∀ h ∈ m.walk, (m.get h).children.map (nodeOf data) = Node.childNodes (nodeOf data h)

namespace Model

open Outline

/-- The outlines at the top level are read from what stands there. -/
theorem topLevel_eq_ok {data : Value} {os : List Outline} (h : topLevel data = .ok os) :
    (Node.nodesAt "children" data).mapM Outline.ofValue = .ok os := by
  obtain ⟨vs, hvs, hos⟩ : ∃ vs, topNodes data = .ok vs ∧ vs.mapM Outline.ofValue = .ok os := by
    obtain ⟨children, hfield, h⟩ := Fault.bind_eq_ok_iff.mp h
    obtain ⟨vs, hitems, h⟩ := Fault.bind_eq_ok_iff.mp h
    exact ⟨vs, Fault.bind_eq_ok_iff.mpr ⟨children, hfield, hitems⟩, h⟩
  rwa [← Node.eq_nodesAt hvs fun x hx ↦ ?_]
  obtain ⟨o, ho⟩ := exists_mapM_eq_ok_iff.mp ⟨os, hos⟩ x hx
  exact isObject_of_ofValue ho

/-- What is laid out at a handle is laid out for the node of the file there. -/
theorem data_eq_nodeOf {data : Value} {os : List Outline} (htop : topLevel data = .ok os) {h : Handle}
    {p : Placed} (hp : (laid os)[h]? = some p) : p.data = nodeOf data h := by
  have hnodes : (nodesAll os).map Prod.snd = fileNodes data := map_snd_nodesAll os (topLevel_eq_ok htop)
  have hdata : (fileNodes data)[h]? = some p.data := by
    rw [← hnodes, ← map_placeAll os none 0, List.map_map, List.getElem?_map]
    exact congrArg _ hp
  rw [nodeOf, hdata, Option.getD_some]

/-- **A model unfolds its file.** -/
theorem unfolds_of_ofValue {data : Value} {told : List Event} {m : Model}
    (hload : ofValue data = ⟨told, .ok m⟩) : m.Unfolds data := by
  obtain ⟨name, os, -, htop, -, rfl⟩ := ofValue_eq_ok_iff.mp ⟨told, hload⟩
  have hos : (Node.nodesAt "children" data).mapM Outline.ofValue = .ok os := topLevel_eq_ok htop
  have hnodes : (nodesAll os).map Prod.snd = fileNodes data := map_snd_nodesAll os hos
  have hD : StandsAt (nodeOf data) 0 ((nodesAll os).map Prod.snd) := by
    rw [hnodes]
    exact standsAt_nodeOf data
  -- the walk goes over the handles in order, and each node stands at its own
  have hget : ∀ h ∈ (ofOutlines name os).walk, ∃ p : Placed, p.IsFaithful (nodeOf data) ∧
      p.data = nodeOf data h ∧ (ofOutlines name os).get h = p.linked (numbering os) := by
    intro h hh
    obtain ⟨p, hp⟩ := exists_laid_of_mem_walk hh
    exact ⟨p, isFaithful_of_mem_placeAll os hos hD p (List.mem_of_getElem? hp),
      data_eq_nodeOf htop hp, get_ofOutlines hp⟩
  refine ⟨?_, map_handlesFrom hos hD, fun h hh ↦ ?_, fun h hh ↦ ?_, fun h hh ↦ ?_⟩
  · rw [StandsAt, List.length_map, length_nodesAll, hnodes] at hD
    rw [walk_ofOutlines, List.range_eq_range']
    exact hD
  · obtain ⟨p, hfaithful, hdata, hp⟩ := hget h hh
    rw [← hdata, hp]
    exact hfaithful.head
  · obtain ⟨p, hfaithful, hdata, hp⟩ := hget h hh
    rw [← hdata, hp]
    exact hfaithful.signatures
  · obtain ⟨p, hfaithful, hdata, hp⟩ := hget h hh
    rw [← hdata, hp]
    exact hfaithful.children

end Model

end RefCheck
