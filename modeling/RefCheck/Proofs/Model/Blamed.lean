import RefCheck.Proofs.Model.Misshapen

/-!
# The node that is blamed

A file all of whose nodes are sound loads or is refused with a problem of the model, and the problem is that of
one node. Which one, and for what, is said here without reading anything.

* `Node.IsBlamed` says for what a node is blamed: for the first of the fields that it must have and lacks, or, if
  it lacks none, for the first of its numbers that stands for no whole one.
* The node is the first in the order of `fileNodes`, each node before its signatures and these before its
  children. Everything before it is complete, whatever comes after it.

A reader looks at a node, then at what it holds, and gives up where it first has to. So the fault of a file is
found by a search through its nodes (`Fault.of?_ofValue`), and `Model.ofValue_blames_first` reads this search as
a statement about the file.
-/

namespace RefCheck

open RefCheck.Log

section

variable {α β γ : Type}

private theorem findSome?_cons_eq_or (f : α → Option β) (a : α) (items : List α) :
    (a :: items).findSome? f = (f a).or (items.findSome? f) := by
  rw [List.findSome?_cons]
  cases f a <;> rfl

private theorem findSome?_flatMap (items : List α) (g : α → List β) (f : β → Option γ) :
    (items.flatMap g).findSome? f = items.findSome? fun a ↦ (g a).findSome? f := by
  induction items with
  | nil => rfl
  | cons a items ih => rw [List.flatMap_cons, List.findSome?_append, ih, findSome?_cons_eq_or]

end

namespace Node

/-! ## What a node is blamed for -/

/-- What a message calls a node: its name, or else its number, or neither. -/
def title (node : Value) : String :=
  match node.get? "name", node.get? "id" with
  | some name, _ => name.quoted
  | none, some id => "#" ++ id.display
  | none, none => "<anonymous>"

/-- A node lacks a field. -/
def lacks (node : Value) (field : String) : Problem := .fieldMissing (.str field) (.str (title node))

/-- What stands in a field of a node is no whole number. -/
def misstates (node : Value) (field : String) (v : Value) : Problem :=
  .fieldInvalid (.str field) (.str (title node)) v

/-- What stands in the numbers of a node, with the name of the field: its number, its kind, and the lines of its
sources in order. -/
def numbers (node : Value) : List (String × Value) :=
  (node.get? "id").toList.map (Prod.mk "id") ++ (node.get? "kind").toList.map (Prod.mk "kind") ++
    ((nodesAt "sources" node).filterMap (Value.get? "line")).map (Prod.mk "line")

/-- **What a node is blamed for**: one thing, and nothing comes before it. -/
inductive IsBlamed (node : Value) : Problem → Prop where
  /-- The first of the required fields that is missing. -/
  | missing {before after : List String} {field : String}
      (hfields : requiredFields = before ++ field :: after)
      (hbefore : ∀ key ∈ before, (node.get? key).isSome = true) (hfield : node.get? field = none) :
      IsBlamed node (lacks node field)
  /-- The first of the numbers that stands for no whole one, where no required field is missing. -/
  | invalid {before after : List (String × Value)} {field : String} {v : Value}
      (hrequired : ∀ key ∈ requiredFields, (node.get? key).isSome = true)
      (hnumbers : numbers node = before ++ (field, v) :: after)
      (hbefore : ∀ entry ∈ before, entry.2.isWhole = true) (hv : v.isWhole = false) :
      IsBlamed node (misstates node field v)

/-! ## Searching a node -/

/-- What is told of a field that may be missing. -/
def missing? (node : Value) (field : String) : Option Problem :=
  if (node.get? field).isSome then none else some (lacks node field)

/-- What is told of a number that may stand for no whole one. -/
def misstated? (node : Value) (entry : String × Value) : Option Problem :=
  if entry.2.isWhole then none else some (misstates node entry.1 entry.2)

/-- What a node is blamed for, if for anything. -/
def blame? (node : Value) : Option Problem :=
  (requiredFields.findSome? (missing? node)).or ((numbers node).findSome? (misstated? node))

variable {node : Value}

theorem missing?_eq_none_iff {field : String} :
    missing? node field = none ↔ (node.get? field).isSome = true := by
  rw [missing?]
  split
  · next h => exact iff_of_true rfl h
  · next h => exact iff_of_false (Option.some_ne_none _) h

theorem misstated?_eq_none_iff {entry : String × Value} :
    misstated? node entry = none ↔ entry.2.isWhole = true := by
  rw [misstated?]
  split
  · next h => exact iff_of_true rfl h
  · next h => exact iff_of_false (Option.some_ne_none _) h

theorem missing?_eq_some_iff {field : String} {p : Problem} :
    missing? node field = some p ↔ node.get? field = none ∧ p = lacks node field := by
  rw [missing?]
  cases node.get? field with
  | some v => exact iff_of_false (fun h ↦ by cases h) fun h ↦ by cases h.1
  | none =>
    rw [Option.isSome_none, if_neg Bool.false_ne_true, Option.some.injEq, and_iff_right rfl, eq_comm]

theorem misstated?_eq_some_iff {entry : String × Value} {p : Problem} :
    misstated? node entry = some p ↔
      entry.2.isWhole = false ∧ p = misstates node entry.1 entry.2 := by
  rw [misstated?]
  cases entry.2.isWhole with
  | true => exact iff_of_false (fun h ↦ by cases h) fun h ↦ by cases h.1
  | false => rw [if_neg Bool.false_ne_true, Option.some.injEq, and_iff_right rfl, eq_comm]

/-- The search finds what a node is blamed for. -/
theorem isBlamed_iff {p : Problem} : IsBlamed node p ↔ blame? node = some p := by
  have hrequired : requiredFields.findSome? (missing? node) = none ↔
      ∀ key ∈ requiredFields, (node.get? key).isSome = true := by
    simp only [List.findSome?_eq_none_iff, missing?_eq_none_iff]
  rw [blame?, Option.or_eq_some_iff, hrequired, List.findSome?_eq_some_iff,
    List.findSome?_eq_some_iff]
  simp only [missing?_eq_some_iff, missing?_eq_none_iff, misstated?_eq_some_iff,
    misstated?_eq_none_iff]
  constructor
  · rintro (⟨hfields, hbefore, hfield⟩ | ⟨hall, hnumbers, hbefore, hv⟩)
    · exact .inl ⟨_, _, _, hfields, ⟨hfield, rfl⟩, hbefore⟩
    · exact .inr ⟨hall, _, _, _, hnumbers, ⟨hv, rfl⟩, hbefore⟩
  · rintro (⟨before, field, after, hfields, ⟨hfield, rfl⟩, hbefore⟩ |
      ⟨hall, before, ⟨field, v⟩, after, hnumbers, ⟨hv, rfl⟩, hbefore⟩)
    · exact .missing hfields hbefore hfield
    · exact .invalid hall hnumbers hbefore hv

theorem mem_numbers_iff {entry : String × Value} : entry ∈ numbers node ↔
    (entry.1 = "id" ∧ entry.2 ∈ node.get? "id") ∨ (entry.1 = "kind" ∧ entry.2 ∈ node.get? "kind") ∨
      entry.1 = "line" ∧ ∃ s ∈ nodesAt "sources" node, entry.2 ∈ s.get? "line" := by
  obtain ⟨field, v⟩ := entry
  simp only [numbers, List.mem_append, List.mem_map, List.mem_filterMap, Option.mem_toList,
    Prod.mk.injEq, Option.mem_def, or_assoc]
  grind

/-- **Complete nodes are those that are blamed for nothing.** -/
theorem blame?_eq_none_iff : blame? node = none ↔ IsComplete node := by
  rw [blame?, Option.or_eq_none_iff, List.findSome?_eq_none_iff, List.findSome?_eq_none_iff]
  simp only [missing?_eq_none_iff, misstated?_eq_none_iff, mem_numbers_iff]
  constructor
  · rintro ⟨hrequired, hnumbers⟩
    have hfield : ∀ key ∈ requiredFields, ∃ v, node.get? key = some v :=
      fun key hkey ↦ Option.isSome_iff_exists.mp (hrequired key hkey)
    obtain ⟨id, hid⟩ := hfield "id" (by decide)
    obtain ⟨kind, hkind⟩ := hfield "kind" (by decide)
    exact ⟨⟨id, hid, hnumbers ("id", id) (.inl ⟨rfl, hid⟩)⟩, hrequired "name" (by decide),
      ⟨kind, hkind, hnumbers ("kind", kind) (.inr (.inl ⟨rfl, hkind⟩))⟩,
      fun s hs v hv ↦ hnumbers ("line", v) (.inr (.inr ⟨rfl, s, hs, hv⟩))⟩
  · rintro ⟨⟨id, hid, hidWhole⟩, hname, ⟨kind, hkind, hkindWhole⟩, hlines⟩
    refine ⟨fun field hfield ↦ ?_, ?_⟩
    · simp only [requiredFields, List.mem_cons, List.not_mem_nil, or_false] at hfield
      rcases hfield with rfl | rfl | rfl
      · exact Option.isSome_iff_exists.mpr ⟨id, hid⟩
      · exact hname
      · exact Option.isSome_iff_exists.mpr ⟨kind, hkind⟩
    · rintro ⟨field, v⟩ (⟨-, hv⟩ | ⟨-, hv⟩ | ⟨-, s, hs, hv⟩)
      · rwa [Option.some.inj (hid.symm.trans hv)] at hidWhole
      · rwa [Option.some.inj (hkind.symm.trans hv)] at hkindWhole
      · exact hlines s hs v hv

/-! ## Reading a node -/

/-- An object is called the same by every message. -/
theorem describe_eq_ok (hobject : node.isObject = true) : describe node = .ok (title node) := by
  cases node with
  | obj fields =>
    simp only [describe, title, Value.holds, Value.entry, Value.get?, bind, Except.bind]
    cases fields.lookup "name" with
    | some name => rfl
    | none => cases fields.lookup "id" <;> rfl
  | null | bool | int | float | str | arr => cases hobject

theorem holds_eq_ok (hobject : node.isObject = true) (key : String) :
    node.holds key = .ok (node.get? key).isSome := by
  cases node with
  | obj fields => rfl
  | null | bool | int | float | str | arr => cases hobject

/-- Of the fields that are asked for, the first that is missing is told. -/
theorem of?_checkRequired (hobject : node.isObject = true) (fields : List String) :
    Fault.of? (checkRequired node fields)
      = (fields.findSome? (missing? node)).map Fault.problem := by
  induction fields with
  | nil => rfl
  | cons field fields ih =>
    rw [checkRequired, Fault.of?_bind_of_ok (holds_eq_ok hobject field), List.findSome?_cons, missing?]
    cases (node.get? field).isSome with
    | true => exact ih
    | false =>
      rw [if_neg Bool.false_ne_true, Fault.of?_bind_of_ok (describe_eq_ok hobject)]
      rfl

/-- A value that is not infinite is told if it stands for no whole number. -/
theorem of?_wholeField (hobject : node.isObject = true) {v : Value} (hv : v.isInfinite = false)
    (field : String) :
    Fault.of? (wholeField field node v) = (misstated? node (field, v)).map Fault.problem := by
  obtain ⟨read, hread⟩ := Value.exists_whole?_iff.mpr hv
  rw [wholeField, Fault.of?_bind_of_ok hread, misstated?, Value.isWhole, hread]
  cases read with
  | some n => rfl
  | none =>
    rw [Fault.of?_bind_of_ok (describe_eq_ok hobject)]
    rfl

/-- Of a declaration site, only its line can be told. -/
theorem of?_source (hobject : node.isObject = true) {s : Value} (hs : s.isObject = true)
    (hline : ∀ v ∈ s.get? "line", v.isInfinite = false) :
    Fault.of? (source node s)
      = ((s.get? "line").bind fun v ↦ misstated? node ("line", v)).map Fault.problem := by
  have hfinite : ((s.get? "line").getD (.int 0)).isInfinite = false := by
    cases hget : s.get? "line" with
    | none => rfl
    | some v => exact hline v hget
  rw [source, Fault.of?_bind_of_ok (field_eq_ok hs _ _), Fault.of?_bind_of_ok (field_eq_ok hs _ _),
    Fault.of?_bind_left fun n ↦ Fault.of?_bind_of_ok (field_eq_ok hs _ _), of?_wholeField hobject hfinite]
  cases s.get? "line" <;> rfl

/-- Of the declaration sites of a sound node, the first line that is no number is told. -/
theorem of?_sources (h : IsSound node) :
    Fault.of? ((nodesAt "sources" node).mapM (source node))
      = ((((nodesAt "sources" node).filterMap (Value.get? "line")).map (Prod.mk "line")).findSome?
          (misstated? node)).map Fault.problem := by
  have hsites := isObject_of_mem_nodesAt (h.shaped.arrays "sources" (by decide))
  rw [Fault.of?_mapM fun s hs ↦ of?_source h.shaped.isObject (hsites s hs) (h.finite.lines s hs)]
  generalize nodesAt "sources" node = sites
  induction sites with
  | nil => rfl
  | cons s sites ih =>
    rw [findSome?_cons_eq_or, ih, List.filterMap_cons]
    cases s.get? "line" with
    | none => rfl
    | some v => rw [Option.bind_some, List.map_cons, findSome?_cons_eq_or, Option.map_or]

/-- The fields that are read after the numbers have nothing to tell. -/
private theorem of?_flags (h : IsSound node) :
    Fault.of? (((node.get? "flags").getD (.obj [])).field "isStatic" (.bool false)) = none := by
  have hflags : ((node.get? "flags").getD (.obj [])).isObject = true := by
    cases hget : node.get? "flags" with
    | none => rfl
    | some v => exact h.plain.flags v hget
  rw [field_eq_ok hflags]
  rfl

/-- **The fault of a sound node** is what the node is blamed for. -/
theorem of?_head (h : IsSound node) :
    Fault.of? (head node) = (blame? node).map Fault.problem := by
  have hobject := h.shaped.isObject
  have hitems := items_getD_eq_ok (h.shaped.arrays "sources" (by decide))
  obtain ⟨comment, hcomment⟩ := exists_comment h.shaped h.plain
  rw [blame?, Option.map_or, ← of?_checkRequired hobject]
  refine Fault.of?_bind fun _ hchecked ↦ ?_
  have hrequired := exists_entry_of_checkRequired hobject hchecked
  obtain ⟨id, hid⟩ := hrequired "id" (by decide)
  obtain ⟨name, hname⟩ := hrequired "name" (by decide)
  obtain ⟨kind, hkind⟩ := hrequired "kind" (by decide)
  have hidNumber := of?_wholeField hobject (h.finite.id id (entry_eq_ok_iff.mp hid)) "id"
  have hkindNumber := of?_wholeField hobject (h.finite.kind kind (entry_eq_ok_iff.mp hkind)) "kind"
  -- the number, the kind and the lines are told in the order in which they are read
  rw [numbers, entry_eq_ok_iff.mp hid, entry_eq_ok_iff.mp hkind, List.findSome?_append,
    List.findSome?_append, Option.map_or, Option.map_or, ← of?_sources h, Option.or_assoc]
  simp only [Option.toList_some, List.map_singleton, List.findSome?_singleton]
  rw [← hidNumber, ← hkindNumber, Fault.of?_bind_of_ok hid]
  refine Fault.of?_bind fun _ _ ↦ ?_
  rw [Fault.of?_bind_of_ok hname, Fault.of?_bind_of_ok hkind]
  refine Fault.of?_bind fun _ _ ↦ ?_
  rw [Fault.of?_bind_of_ok (field_eq_ok hobject _ _), Fault.of?_bind_of_ok hcomment,
    Fault.of?_bind_of_ok (field_eq_ok hobject _ _), Fault.of?_bind_of_ok hitems]
  refine Fault.of?_bind_left fun _ ↦ ?_
  rw [Fault.of?_bind_of_ok (field_eq_ok hobject _ _), ← of?_flags h]
  exact Fault.of?_bind_left fun _ ↦ rfl

/-- Whoever is blamed is not complete. -/
theorem IsBlamed.not_isComplete {p : Problem} (h : IsBlamed node p) : ¬IsComplete node := by
  rw [← blame?_eq_none_iff, isBlamed_iff.mp h]
  exact Option.some_ne_none p

theorem IsBlamed.family_eq {p : Problem} (h : IsBlamed node p) : p.family = .model := by
  cases h <;> rfl

end Node

/-! ## Reading what a node holds -/

/-- **The fault of a sound node and all below it** is what the first of them that is blamed is blamed for. -/
theorem Outline.of?_ofValue {node : Value} (h : ∀ x ∈ Node.preorder node, Node.IsSound x) :
    Fault.of? (ofValue node)
      = (Node.preorder node).findSome? fun x ↦ (Node.blame? x).map Fault.problem := by
  -- on the depth of the node, for what it holds is less deep
  induction hdepth : node.depth using Nat.strongRecOn generalizing node with
  | ind depth ih =>
    have hself := h node (Node.mem_preorder_self node)
    have hheld : ∀ xs : List Value, (∀ x ∈ xs, x ∈ Node.signatureNodes node ∨ x ∈ Node.childNodes node) →
        Fault.of? (xs.mapM ofValue)
          = (xs.flatMap Node.preorder).findSome? fun x ↦ (Node.blame? x).map Fault.problem := by
      intro xs hxs
      rw [findSome?_flatMap]
      refine Fault.of?_mapM fun x hx ↦ ih x.depth ?_ (fun y hy ↦ ?_) rfl
      · rw [← hdepth]
        exact (hxs x hx).elim Node.depth_lt_of_mem_signatureNodes Node.depth_lt_of_mem_childNodes
      · exact h y (Node.preorder_subset (hxs x hx) hy)
    rw [ofValue_eq, Node.signatures_eq_ok hself.shaped, Node.children_eq_ok hself.shaped,
      Node.preorder_eq, findSome?_cons_eq_or, List.findSome?_append, ← Node.of?_head hself,
      ← hheld _ fun x hx ↦ .inl hx, ← hheld _ fun x hx ↦ .inr hx]
    refine Fault.of?_bind fun _ _ ↦ (Fault.of?_bind_of_ok rfl).trans (Fault.of?_bind fun _ _ ↦ ?_)
    exact (Fault.of?_bind_of_ok rfl).trans (Fault.of?_bind_left fun _ ↦ rfl)

/-! ## Files -/

namespace Model

variable {data : Value}

open Outline

theorem of?_topLevel (h : IsSoundFile data) :
    Fault.of? (topLevel data)
      = (fileNodes data).findSome? fun x ↦ (Node.blame? x).map Fault.problem := by
  rw [topLevel, Fault.of?_bind_of_ok (Node.field_eq_ok h.isObject _ _),
    Fault.of?_bind_of_ok (Node.items_getD_eq_ok h.children), fileNodes, findSome?_flatMap]
  refine Fault.of?_mapM fun node hnode ↦ of?_ofValue fun x hx ↦ ?_
  exact h.nodes x (List.mem_flatMap.mpr ⟨node, hnode, hx⟩)

/-- What a sound file is refused for is what the first of its nodes that is blamed is blamed for. -/
theorem of?_ofValue (h : IsSoundFile data) :
    Fault.of? (ofValue data).result
      = (fileNodes data).findSome? fun x ↦ (Node.blame? x).map Fault.problem := by
  have hname : projectName data = .ok ((data.get? "name").getD (.str "")).display := by
    rw [projectName, Node.field_eq_ok h.isObject]
    rfl
  rw [← of?_topLevel h, ofValue, load, hname]
  cases htop : topLevel data with
  | error f => rfl
  | ok os =>
    -- the links of sound nodes have nothing to tell
    have hlinks : ((empty "").withOutlines ((data.get? "name").getD (.str "")).display os).1.fault
        = none := by
      refine Trace.fault_forEach_eq_none_iff.mpr fun n hn ↦ ?_
      have hnode := snd_mem_of_mem_innerFirstAll os hn
      rw [map_snd_nodesAll os (topLevel_eq_ok htop)] at hnode
      exact Node.fault_links_eq_none _ (h.nodes n.2 hnode).shaped (h.nodes n.2 hnode).plain
    dsimp only
    rw [hlinks]
    rfl

/-- **The first bad node is blamed.** A sound file loads exactly if all its nodes are complete. Otherwise it is
refused, with the problem for which the first node that is not complete is blamed. -/
theorem ofValue_blames_first (h : IsSoundFile data) :
    ((∃ told m, ofValue data = ⟨told, .ok m⟩) ↔ ∀ node ∈ fileNodes data, Node.IsComplete node) ∧
      ∀ f, (ofValue data).result = .error f ↔ ∃ before node after p,
        fileNodes data = before ++ node :: after ∧ (∀ x ∈ before, Node.IsComplete x) ∧
          ¬Node.IsComplete node ∧ Node.IsBlamed node p ∧ p.family = .model ∧ f = .problem p := by
  have hfault := of?_ofValue h
  constructor
  · have hnone : Fault.of? (ofValue data).result = none ↔
        ∀ node ∈ fileNodes data, Node.IsComplete node := by
      simp only [hfault, List.findSome?_eq_none_iff, Option.map_eq_none_iff, Node.blame?_eq_none_iff]
    rw [← hnone, Fault.of?_eq_none_iff]
    constructor
    · rintro ⟨told, m, hload⟩
      exact ⟨m, by rw [hload]⟩
    · rintro ⟨m, hresult⟩
      exact ⟨(ofValue data).events, m, by rw [← hresult]⟩
  · intro f
    rw [← Fault.of?_eq_some_iff, hfault, List.findSome?_eq_some_iff]
    simp only [Option.map_eq_some_iff, Option.map_eq_none_iff, Node.blame?_eq_none_iff,
      ← Node.isBlamed_iff]
    constructor
    · rintro ⟨before, node, after, hsplit, ⟨p, hblamed, rfl⟩, hbefore⟩
      exact ⟨before, node, after, p, hsplit, hbefore, hblamed.not_isComplete, hblamed,
        hblamed.family_eq, rfl⟩
    · rintro ⟨before, node, after, p, hsplit, hbefore, -, hblamed, -, rfl⟩
      exact ⟨before, node, after, hsplit, ⟨p, hblamed, rfl⟩, hbefore⟩

/-- A signature that lacks its kind. -/
def nodeWithoutKind : Value := .obj [("id", .int 3), ("name", .str "s")]

/-- A class on a line that is no number. -/
def nodeOffLine : Value :=
  nodeWith 2 "C" 128 [("sources", .arr [.obj [("fileName", .str "a.ts"), ("line", .str "x")]])]

/-- A module with two nodes that are not complete, and another node that has nothing at all. -/
def moduleOfBad : Value :=
  nodeWith 1 "m" 2 [("children", .arr [nodeOffLine]), ("signatures", .arr [nodeWithoutKind])]

/-- A file with three nodes that are not complete. -/
def fileOfBad : Value := .obj [("children", .arr [moduleOfBad, .obj []])]

/-- The signature is read before the class, wherever the file has it. -/
theorem ofValue_fileOfBad : IsSoundFile fileOfBad ∧ (ofValue fileOfBad).result
    = .error (.problem (.fieldMissing (.str "kind") (.str "'s'"))) := by
  have hshaped : ∀ node ∈ fileNodes fileOfBad, Node.IsShaped node := by decide +kernel
  have hplain : ∀ node ∈ fileNodes fileOfBad, Node.IsPlain node := by decide +kernel
  have hfinite : ∀ node ∈ fileNodes fileOfBad, Node.IsFinite node := by decide +kernel
  have hsound : IsSoundFile fileOfBad :=
    ⟨rfl, rfl, fun node hnode ↦ ⟨hshaped node hnode, hplain node hnode, hfinite node hnode⟩⟩
  have hleaf : ∀ node, Node.signatureNodes node = [] → Node.childNodes node = [] →
      Node.preorder node = [node] := by
    intro node hsignatures hchildren
    rw [Node.preorder_eq, hsignatures, hchildren]
    rfl
  have hsignatures : Node.signatureNodes moduleOfBad = [nodeWithoutKind] := rfl
  have hchildren : Node.childNodes moduleOfBad = [nodeOffLine] := rfl
  have htop : Node.nodesAt "children" fileOfBad = [moduleOfBad, .obj []] := rfl
  have hnodes : fileNodes fileOfBad = [moduleOfBad] ++ nodeWithoutKind :: [nodeOffLine, .obj []] := by
    rw [fileNodes, htop, List.flatMap_cons, List.flatMap_singleton, hleaf (.obj []) rfl rfl,
      Node.preorder_eq, hsignatures, hchildren, List.flatMap_singleton, List.flatMap_singleton,
      hleaf nodeWithoutKind rfl rfl, hleaf nodeOffLine rfl rfl]
    rfl
  have hfields : Node.requiredFields = ["id", "name"] ++ "kind" :: [] := rfl
  have hblamed : Node.IsBlamed nodeWithoutKind (Node.lacks nodeWithoutKind "kind") :=
    .missing hfields (by decide) rfl
  refine ⟨hsound, ((ofValue_blames_first hsound).2 _).mpr ⟨_, _, _, _, hnodes, ?_,
    hblamed.not_isComplete, hblamed, rfl, rfl⟩⟩
  exact List.forall_mem_singleton.mpr (by decide +kernel)

end Model

end RefCheck
