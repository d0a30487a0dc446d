import RefCheck.Proofs.Model.Readable

/-!
# What a declaration is linked to

A node names the types that it extends and implements, and the member that it repeats, by their numbers. Where
the named node stands does not matter: before the one that names it or after it, above it or below it, and it may
be that node itself. What a number leads to is said of the loaded model alone (`Model.lastNumbered?`): the
reflection of this number that the walk comes to last.

So the links of a model can be read off its file (`Model.IsLinkedBy`). The bases are what the named types lead to,
in the order of the types. A type whose number no reflection has is left out, and one that is named twice is there
twice. `Model.ofValue_isLinkedBy` says that every model of a file is linked in this way.

Two things make it so. The numbers of all nodes are known before the first link is made, which is why nothing here
speaks of nodes that are linked already. And the walk is the order in which the nodes were numbered, which is why
the last number of a node is the last one on the walk (`Model.handle?_numbering`).
-/

namespace RefCheck

open RefCheck.Log

namespace Node

/-! ## The links of a node -/

/-- The types that a node names as extended, and then those that it names as implemented. -/
def namedTypes (node : Value) : List Value := baseFields.flatMap fun field ↦ nodesAt field node

variable {numbering : Numbering} {node : Value}

/-- What can be looked at for its number is an object, and is led to where its number leads. -/
private theorem of_target?_eq_ok {type : Value} {found : Option Handle}
    (h : target? numbering type = .ok found) :
    type.isObject = true ∧ found = (targetId? type).bind numbering.handle? := by
  rw [target?_eq] at h
  cases type with
  | obj fields => exact ⟨rfl, (Except.ok.inj h).symm⟩
  | null | bool | int | float | str | arr => cases h

/-- The step for a type tells where its number leads, and nothing of a member that is repeated. -/
private theorem of_baseStep_eq_ok {type : Value} {s : LinkStep} (h : baseStep numbering type = .ok s) :
    type.isObject = true ∧ s.base? = (targetId? type).bind numbering.handle? ∧ s.inherited? = none := by
  obtain ⟨found, hfound, h⟩ := Fault.bind_eq_ok_iff.mp h
  obtain ⟨hobject, hto⟩ := of_target?_eq_ok hfound
  cases found with
  | some k =>
    cases h
    exact ⟨hobject, hto, rfl⟩
  | none =>
    obtain ⟨name, -, h⟩ := Fault.bind_eq_ok_iff.mp h
    cases h
    exact ⟨hobject, hto, rfl⟩

/-- Where nothing stops at the types of a field, they are an array, and each has its step. -/
private theorem exists_steps_of_fault_baseSteps {field : String}
    (h : (baseSteps numbering node field).fault = none) :
    fieldItems field (.arr []) node = .ok (nodesAt field node) ∧
      ∀ type ∈ nodesAt field node, ∃ s, baseStep numbering type = .ok s := by
  rw [baseSteps] at h
  cases hitems : fieldItems field (.arr []) node with
  | error f =>
    rw [hitems] at h
    cases h
  | ok types =>
    rw [hitems] at h
    have hstep : ∀ type ∈ types, ∃ s, baseStep numbering type = .ok s := by
      intro type htype
      have hnone := Trace.fault_forEach_eq_none_iff.mp h type htype
      cases hs : baseStep numbering type with
      | ok s => exact ⟨s, rfl⟩
      | error f =>
        rw [hs] at hnone
        cases hnone
    have htypes : types = nodesAt field node := by
      refine eq_nodesAt hitems fun type htype ↦ ?_
      obtain ⟨s, hs⟩ := hstep type htype
      exact (of_baseStep_eq_ok hs).1
    rw [← htypes]
    exact ⟨rfl, hstep⟩

/-- The types of one field, if nothing stops at them. -/
private theorem steps_baseSteps {field : String} (h : (baseSteps numbering node field).fault = none) :
    (baseSteps numbering node field).steps.filterMap LinkStep.base?
        = (nodesAt field node).filterMap (fun type ↦ (targetId? type).bind numbering.handle?) ∧
      ∀ s ∈ (baseSteps numbering node field).steps, s.inherited? = none := by
  obtain ⟨hitems, hstep⟩ := exists_steps_of_fault_baseSteps h
  rw [baseSteps, hitems] at h ⊢
  have hfree := Trace.fault_forEach_eq_none_iff.mp h
  rw [Trace.ofResult, Trace.forEach_eq_of_fault_eq_none hfree]
  constructor
  · rw [List.filterMap_flatMap, List.filterMap_eq_flatMap_toList]
    refine List.flatMap_congr fun type htype ↦ ?_
    obtain ⟨s, hs⟩ := hstep type htype
    rw [hs, ← (of_baseStep_eq_ok hs).2.1]
    cases hbase : s.base? <;> simp [Trace.ofResult, Trace.step, hbase]
  · intro s hs
    obtain ⟨type, -, hs⟩ := List.mem_flatMap.mp hs
    obtain ⟨s', hs', hs⟩ := Trace.mem_steps_ofResult hs
    rw [List.mem_singleton.mp hs]
    exact (of_baseStep_eq_ok hs').2.2

/-- The member that is repeated, if nothing stops there. What counts as no value names nothing. -/
private theorem steps_inheritedStep (h : (inheritedStep numbering node).fault = none) :
    (inheritedStep numbering node).steps.findSome? LinkStep.inherited?
        = ((node.get? inheritedField).bind targetId?).bind numbering.handle? ∧
      (inheritedStep numbering node).steps.filterMap LinkStep.base? = [] := by
  rw [inheritedStep] at h ⊢
  cases hget : node.get? inheritedField with
  | none => exact ⟨rfl, rfl⟩
  | some type =>
    rw [hget] at h
    dsimp only at h ⊢
    rw [Option.bind_some]
    by_cases htruthy : type.truthy = true
    · rw [if_pos htruthy] at h ⊢
      cases hfound : target? numbering type with
      | error f =>
        rw [hfound] at h
        cases h
      | ok found =>
        rw [← (of_target?_eq_ok hfound).2]
        cases found <;> exact ⟨rfl, rfl⟩
    · rw [if_neg htruthy]
      have hnone : targetId? type = none := by
        cases type with
        | obj fields =>
          cases fields with
          | nil => rfl
          | cons field fields => exact absurd rfl htruthy
        | null | bool | int | float | str | arr => rfl
      rw [hnone]
      exact ⟨rfl, rfl⟩

/-- **The links of a node**, if nothing stops its linking. -/
theorem steps_links (h : (links numbering node).fault = none) :
    (links numbering node).steps.filterMap LinkStep.base?
        = (namedTypes node).filterMap (fun type ↦ (targetId? type).bind numbering.handle?) ∧
      (links numbering node).steps.findSome? LinkStep.inherited?
        = ((node.get? inheritedField).bind targetId?).bind numbering.handle? := by
  obtain ⟨hbases, hinherited⟩ := Trace.fault_andThen_eq_none_iff.mp h
  have hfree := Trace.fault_forEach_eq_none_iff.mp hbases
  obtain ⟨hmember, hnoBase⟩ := steps_inheritedStep hinherited
  rw [links, Trace.andThen_of_fault_eq_none hbases, Trace.forEach_eq_of_fault_eq_none hfree]
  constructor
  · rw [List.filterMap_append, hnoBase, List.append_nil, List.filterMap_flatMap, namedTypes,
      List.filterMap_flatMap]
    exact List.flatMap_congr fun field hfield ↦ (steps_baseSteps (hfree field hfield)).1
  · have hnone : (baseFields.flatMap fun field ↦ (baseSteps numbering node field).steps).findSome?
        LinkStep.inherited? = none := by
      refine List.findSome?_eq_none_iff.mpr fun s hs ↦ ?_
      obtain ⟨field, hfield, hs⟩ := List.mem_flatMap.mp hs
      exact (steps_baseSteps (hfree field hfield)).2 s hs
    rw [List.findSome?_append, hnone, Option.none_or, hmember]

end Node

namespace Outline

/-! ## All nodes are linked -/

mutual

/-- The nodes that are laid out are those that are linked. -/
theorem snd_mem_innerFirst : ∀ (o : Outline) {n : Int × Value}, n ∈ o.nodes →
    n.2 ∈ (innerFirst o).map Prod.snd
  | .node head data signatures children, n, hn => by
    rw [nodes, List.mem_cons, List.mem_append] at hn
    rw [innerFirst, List.map_append, List.map_append, List.mem_append, List.mem_append]
    rcases hn with rfl | hn | hn
    · exact .inr (List.mem_singleton_self _)
    · exact .inl (.inl (snd_mem_innerFirstAll signatures hn))
    · exact .inl (.inr (snd_mem_innerFirstAll children hn))

theorem snd_mem_innerFirstAll : ∀ (os : List Outline) {n : Int × Value}, n ∈ nodesAll os →
    n.2 ∈ (innerFirstAll os).map Prod.snd
  | [], _, hn => by cases hn
  | o :: os, n, hn => by
    rw [nodesAll, List.mem_append] at hn
    rw [innerFirstAll, List.map_append, List.mem_append]
    rcases hn with hn | hn
    · exact .inl (snd_mem_innerFirst o hn)
    · exact .inr (snd_mem_innerFirstAll os hn)

end

/-- Where nothing stops the linking of a file, nothing stops that of a node which is laid out. -/
theorem fault_links_of_mem_laid {os : List Outline} (h : Model.Links os) {p : Placed}
    (hp : p ∈ laid os) : (Node.links (numbering os) p.data).fault = none := by
  have hnode : (p.reflection.id, p.data) ∈ nodesAll os := by
    rw [← map_placeAll os none 0]
    exact List.mem_map.mpr ⟨p, hp, rfl⟩
  obtain ⟨n, hn, heq⟩ := List.mem_map.mp (snd_mem_innerFirstAll os hnode)
  have hdata : n.2 = p.data := heq
  rw [← hdata]
  exact h n hn

end Outline

namespace Model

open Outline

/-! ## What a number leads to -/

/-- The reflection of a number that the walk comes to last. -/
def lastNumbered? (m : Model) (n : Int) : Option Handle := m.walk.reverse.find? fun h ↦ (m.get h).id == n

/-- What a type leads to in a model. -/
def ofType? (m : Model) (type : Value) : Option Handle := (Node.targetId? type).bind m.lastNumbered?

theorem lastNumbered?_eq_some_iff {m : Model} {n : Int} {h : Handle} :
    m.lastNumbered? n = some h ↔ (m.get h).id = n ∧ ∃ before after, m.walk = before ++ h :: after ∧
      ∀ k ∈ after, (m.get k).id ≠ n := by
  rw [lastNumbered?, List.find?_eq_some_iff_append, beq_iff_eq]
  refine and_congr_right fun _ ↦ ⟨?_, ?_⟩
  · rintro ⟨after, before, hwalk, hafter⟩
    refine ⟨before.reverse, after.reverse, ?_, fun k hk ↦ ?_⟩
    · rw [← List.reverse_reverse m.walk, hwalk, List.reverse_append, List.reverse_cons,
        List.append_assoc, List.singleton_append]
    · exact bne_iff_ne.mp (hafter k (List.mem_reverse.mp hk))
  · rintro ⟨before, after, hwalk, hafter⟩
    refine ⟨after.reverse, before.reverse, ?_, fun k hk ↦ ?_⟩
    · rw [hwalk, List.reverse_append, List.reverse_cons, List.append_assoc, List.singleton_append]
    · exact bne_iff_ne.mpr (hafter k (List.mem_reverse.mp hk))

/-- A number leads nowhere only if no reflection has it. -/
theorem lastNumbered?_eq_none_iff {m : Model} {n : Int} :
    m.lastNumbered? n = none ↔ ∀ h ∈ m.walk, (m.get h).id ≠ n := by
  simp only [lastNumbered?, List.find?_eq_none, List.mem_reverse, beq_iff_eq, ne_eq]

private theorem lookup_numbered (f : Handle → Int) (hs : List Handle) (n : Int) :
    (hs.map fun h ↦ (f h, h)).lookup n = hs.find? fun h ↦ f h == n := by
  induction hs with
  | nil => rfl
  | cons h hs ih =>
    rw [List.map_cons, List.lookup_cons, List.find?_cons, ih, BEq.comm]

private theorem numberingFrom_eq (start : Nat) (f : Handle → Int) :
    ∀ ps : List Placed, (∀ i p, ps[i]? = some p → f (start + i) = p.reflection.id) →
      numberingFrom start ps = (List.range' start ps.length).map fun h ↦ (f h, h)
  | [], _ => rfl
  | p :: ps, h => by
    rw [numberingFrom, List.length_cons, List.range'_succ, List.map_cons,
      numberingFrom_eq (start + 1) f ps fun i q hq ↦ ?_]
    · rw [← h 0 p rfl]
      rfl
    · rw [Nat.add_assoc, Nat.add_comm 1]
      exact h (i + 1) q hq

/-- **The last number of a node is the last one on the walk**, for the walk is the order in which the nodes were
numbered. -/
theorem handle?_numbering (name : String) (os : List Outline) (n : Int) :
    (numbering os).handle? n = (ofOutlines name os).lastNumbered? n := by
  have hids : numbering os
      = (ofOutlines name os).walk.map fun h ↦ (((ofOutlines name os).get h).id, h) := by
    rw [walk_ofOutlines, List.range_eq_range', ← length_placeAll none 0 os]
    refine numberingFrom_eq 0 (fun h ↦ ((ofOutlines name os).get h).id) (laid os) fun i p hp ↦ ?_
    rw [Nat.zero_add, get_ofOutlines hp]
    rfl
  rw [Numbering.handle?, hids, ← List.map_reverse, lookup_numbered, lastNumbered?]

/-! ## Models of files -/

/-- A model is linked as its file says. -/
structure IsLinkedBy (m : Model) (data : Value) : Prop where
  /-- The bases of a reflection are what the types lead to that its node names. -/
  bases : ∀ h ∈ m.walk, (m.get h).bases = (Node.namedTypes (nodeOf data h)).filterMap m.ofType?
  /-- It repeats the member to which the field for this leads. -/
  inheritedFrom : ∀ h ∈ m.walk,
    (m.get h).inheritedFrom = ((nodeOf data h).get? Node.inheritedField).bind m.ofType?

/-- A model that is loaded is linked as its file says. -/
theorem isLinkedBy_of_ofValue {data : Value} {told : List Event} {m : Model}
    (hload : ofValue data = ⟨told, .ok m⟩) : m.IsLinkedBy data := by
  obtain ⟨name, os, -, htop, hlinks, rfl⟩ := ofValue_eq_ok_iff.mp ⟨told, hload⟩
  have hget : ∀ h ∈ (ofOutlines name os).walk, ∃ p ∈ laid os,
      p.data = nodeOf data h ∧ (ofOutlines name os).get h = p.linked (numbering os) := by
    intro h hh
    obtain ⟨p, hp⟩ := exists_laid_of_mem_walk hh
    exact ⟨p, List.mem_of_getElem? hp, data_eq_nodeOf htop hp, get_ofOutlines hp⟩
  have hto : (fun type ↦ (Node.targetId? type).bind (numbering os).handle?)
      = (ofOutlines name os).ofType? :=
    funext fun type ↦ Option.bind_congr fun n _ ↦ handle?_numbering name os n
  constructor
  · intro h hh
    obtain ⟨p, hp, hdata, hreflection⟩ := hget h hh
    rw [hreflection, ← hdata, ← hto]
    exact (Node.steps_links (fault_links_of_mem_laid hlinks hp)).1
  · intro h hh
    obtain ⟨p, hp, hdata, hreflection⟩ := hget h hh
    rw [hreflection, ← hdata, ← hto, ← Option.bind_assoc]
    exact (Node.steps_links (fault_links_of_mem_laid hlinks hp)).2

/-- **Types are linked wherever they stand.** If the nodes of a file are shaped, complete and plain then the file is
loaded, and each reflection has as its bases what the types lead to that its node names, in order, and repeats what
the field for this leads to: a number leads to the reflection that the walk comes to last of those that have it. -/
theorem ofValue_isLinkedBy {data : Value} (h : IsCompleteFile data)
    (hplain : ∀ node ∈ fileNodes data, Node.IsPlain node) :
    ∃ told m, ofValue data = ⟨told, .ok m⟩ ∧ m.Unfolds data ∧ m.IsLinkedBy data := by
  obtain ⟨told, m, hload⟩ := exists_ofValue h hplain
  exact ⟨told, m, hload, unfolds_of_ofValue hload, isLinkedBy_of_ofValue hload⟩

/-- A type with this number. -/
def typeOf (target : Value) : Value := .obj [("type", .str "reference"), ("target", target)]

/-- A file of a module and three classes, two of which have one number. The first class names, in turn, a class that
comes after it, itself, the module around it by a truth value, the class after it again, a number that nothing has,
a text, and once more itself. The second names the first and repeats the class whose number it has. -/
def fileEntwined : Value :=
  .obj [("name", .str "p"), ("children", .arr [nodeWith 1 "m" 2 [("children", .arr [
    nodeWith 2 "A" 128 [
      ("extendedTypes", .arr ([.int 3, .int 2, .bool true, .int 3, .int 99, .str "3"].map typeOf)),
      ("implementedTypes", .arr [typeOf (.int 2)])],
    nodeWith 3 "B" 128 [("extendedTypes", .arr [typeOf (.int 2)]), ("inheritedFrom", typeOf (.int 3))],
    nodeWith 3 "C" 128 [("inheritedFrom", .obj [])]])]])]

/-- What leads nowhere is left out, and of two classes with one number the last counts. -/
theorem ofValue_fileEntwined :
    IsCompleteFile fileEntwined ∧ (∀ node ∈ fileNodes fileEntwined, Node.IsPlain node) ∧
      ∃ told m, ofValue fileEntwined = ⟨told, .ok m⟩ ∧ m.IsLinkedBy fileEntwined ∧
        m.walk.map (fun h ↦ ((m.get h).bases, (m.get h).inheritedFrom))
          = [([], none), ([3, 1, 0, 3, 1], none), ([1], some 3), ([], none)] := by
  have hcomplete : IsCompleteFile fileEntwined := ⟨rfl, rfl, by decide +kernel, by decide +kernel⟩
  have hplain : ∀ node ∈ fileNodes fileEntwined, Node.IsPlain node := by decide +kernel
  obtain ⟨told, m, hload, -, hlinked⟩ := ofValue_isLinkedBy hcomplete hplain
  have hrun : ((ofValue fileEntwined).result.toOption.map fun m ↦
      m.walk.map fun h ↦ ((m.get h).bases, (m.get h).inheritedFrom))
        = some [([], none), ([3, 1, 0, 3, 1], none), ([1], some 3), ([], none)] := by
    decide +kernel
  rw [hload] at hrun
  exact ⟨hcomplete, hplain, told, m, hload, hlinked, Option.some.inj hrun⟩

end Model

end RefCheck
