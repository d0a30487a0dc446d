import Mathlib.Data.List.Nodup
import RefCheck.Proofs.Model.Embedding
import RefCheck.Proofs.Model.Loaded

/-!
# Nodes and their numbers

A node is linked by the numbers that it names, and it does not matter where the reflection of a number stands.
If two numberings lead every number that a node names to a handle and to its image, then the links of the node
in the one are the images of its links in the other (`Placed.linked_relink`). Nor does it matter where a node
stands itself: laid out from another handle on, it becomes the images of what it was
(`Outline.place_relink`).

What a node names is read off the node alone (`Node.targetIds`), and so is the order of the nodes below one
(`Outline.nodes`), which is the order in which they are laid out.
-/

namespace RefCheck

/-! ## What a node names -/

namespace Node

/-- The number by which a type names a reflection; a truth value counts as one or zero. -/
def targetId? (type : Value) : Option Int :=
  match type.get? "target" with
  | some (.int n) => some n
  | some (.bool b) => some (if b then 1 else 0)
  | _ => none

/-- The types in a field that names extended or implemented types. -/
def baseTypes (node : Value) (field : String) : List Value :=
  match fieldItems field (.arr []) node with
  | .ok types => types
  | .error _ => []

/-- The numbers by which a node names what it extends, implements and repeats. -/
def targetIds (node : Value) : List Int :=
  (baseFields.flatMap fun field ↦ (baseTypes node field).filterMap targetId?) ++
    ((node.get? inheritedField).bind targetId?).toList

/-- The step with its handle led elsewhere. -/
def LinkStep.relink (σ : Handle → Handle) : LinkStep → LinkStep
  | base h => base (σ h)
  | external name => external name
  | inherited h => inherited (h.map σ)

/-- Two numberings lead a number to a handle and to its image, or both to none. -/
def Agree (σ : Handle → Handle) (numbering numbering' : Numbering) (n : Int) : Prop :=
  numbering'.handle? n = (numbering.handle? n).map σ

variable {σ : Handle → Handle} {numbering numbering' : Numbering}

theorem target?_eq (numbering : Numbering) (type : Value) :
    target? numbering type
      = (type.field "target" .null).map fun _ ↦ (targetId? type).bind numbering.handle? := by
  rw [target?, targetId?]
  cases type with
  | obj fields =>
    simp only [Value.field, Value.get?, bind, Except.bind, Except.map, pure, Except.pure]
    cases fields.lookup "target" with
    | none => rfl
    | some target => cases target <;> rfl
  | _ => rfl

theorem target?_relink {type : Value} (h : ∀ n, targetId? type = some n → Agree σ numbering numbering' n) :
    target? numbering' type = (target? numbering type).map (Option.map σ) := by
  rw [target?_eq, target?_eq]
  cases type.field "target" .null with
  | error f => rfl
  | ok _ =>
    cases htype : targetId? type with
    | none => rfl
    | some n => exact congrArg Except.ok (h n htype)

theorem baseStep_relink {type : Value}
    (h : ∀ n, targetId? type = some n → Agree σ numbering numbering' n) :
    baseStep numbering' type = (baseStep numbering type).map (LinkStep.relink σ) := by
  rw [baseStep, baseStep, target?_relink h]
  cases target? numbering type with
  | error f => rfl
  | ok found =>
    cases found with
    | some k => rfl
    | none =>
      simp only [Except.map, Option.map_none, bind, Except.bind]
      cases type.field "name" .null <;> rfl

theorem mem_targetIds_of_base {node type : Value} {field : String} {types : List Value} {n : Int}
    (hfield : field ∈ baseFields) (htypes : fieldItems field (.arr []) node = .ok types)
    (htype : type ∈ types) (hn : targetId? type = some n) : n ∈ targetIds node := by
  refine List.mem_append_left _ (List.mem_flatMap.mpr ⟨field, hfield, ?_⟩)
  rw [baseTypes, htypes]
  exact List.mem_filterMap.mpr ⟨type, htype, hn⟩

theorem mem_targetIds_of_inherited {node type : Value} {n : Int}
    (htype : node.get? inheritedField = some type) (hn : targetId? type = some n) :
    n ∈ targetIds node := by
  refine List.mem_append_right _ ?_
  rw [htype, Option.bind_some, hn]
  exact List.mem_singleton_self n

/-- **The links of a node** are led elsewhere as the numbers are that it names. -/
theorem links_relink {node : Value} (h : ∀ n ∈ targetIds node, Agree σ numbering numbering' n) :
    links numbering' node = (links numbering node).map (LinkStep.relink σ) := by
  rw [links, links, Trace.map_andThen, Trace.map_forEach]
  -- what a field names is part of what the node names, so the fields go one by one
  have hbases : ∀ field ∈ baseFields, baseSteps numbering' node field
      = (baseSteps numbering node field).map (LinkStep.relink σ) := by
    intro field hfield
    rw [baseSteps, baseSteps, Trace.map_ofResult]
    cases htypes : fieldItems field (.arr []) node with
    | error f => rfl
    | ok types =>
      simp only [Trace.ofResult, Trace.map_forEach]
      refine Trace.forEach_congr fun type htype ↦ ?_
      rw [baseStep_relink fun n hn ↦ h n (mem_targetIds_of_base hfield htypes htype hn)]
      cases baseStep numbering type <;> rfl
  have hinherited : inheritedStep numbering' node
      = (inheritedStep numbering node).map (LinkStep.relink σ) := by
    rw [inheritedStep, inheritedStep]
    cases htype : node.get? inheritedField with
    | none => rfl
    | some type =>
      dsimp only
      rw [target?_relink fun n hn ↦ h n (mem_targetIds_of_inherited htype hn)]
      split
      · cases target? numbering type <;> rfl
      · rfl
  rw [Trace.forEach_congr hbases, hinherited]

/-- A type that is linked is linked to a handle that some number leads to. -/
theorem exists_handle?_of_baseStep {type : Value} {h : Handle}
    (hstep : baseStep numbering type = .ok (.base h)) : ∃ n, numbering.handle? n = some h := by
  rw [baseStep] at hstep
  obtain ⟨found, hfound, hstep⟩ := Fault.bind_eq_ok_iff.mp hstep
  cases found with
  | none =>
    obtain ⟨name, -, hstep⟩ := Fault.bind_eq_ok_iff.mp hstep
    cases hstep
  | some k =>
    cases hstep
    rw [target?_eq] at hfound
    cases htarget : type.field "target" .null with
    | error f =>
      rw [htarget] at hfound
      cases hfound
    | ok target =>
      rw [htarget] at hfound
      obtain ⟨n, -, hn⟩ := Option.bind_eq_some_iff.mp (Except.ok.inj hfound)
      exact ⟨n, hn⟩

/-- A base is a handle that some number leads to. -/
theorem exists_handle?_of_base {node : Value} {s : LinkStep} {h : Handle}
    (hs : s ∈ (links numbering node).steps) (hbase : s.base? = some h) :
    ∃ n, numbering.handle? n = some h := by
  rcases Trace.mem_steps_andThen hs with hs | hs
  · obtain ⟨field, -, hs⟩ := Trace.mem_steps_forEach hs
    obtain ⟨types, -, hs⟩ := Trace.mem_steps_ofResult hs
    obtain ⟨type, -, hs⟩ := Trace.mem_steps_forEach hs
    obtain ⟨step, hstep, hs⟩ := Trace.mem_steps_ofResult hs
    rw [List.mem_singleton.mp hs] at hbase
    cases step with
    | base k =>
      cases hbase
      exact exists_handle?_of_baseStep hstep
    | external name => cases hbase
    | inherited k => cases hbase
  · -- the member that is repeated is no base
    rw [inheritedStep] at hs
    split at hs
    · split at hs
      · obtain ⟨k, -, hs⟩ := Trace.mem_steps_ofResult hs
        rw [List.mem_singleton.mp hs] at hbase
        cases hbase
      · cases hs
    · cases hs

end Node

/-! ## Laying out elsewhere -/

/-- What is laid out, with its links led elsewhere. -/
def Placed.relink (σ : Handle → Handle) (p : Placed) : Placed :=
  { p with reflection := p.reflection.relink σ }

/-- **Linking elsewhere.** Where the numbers that a node names lead to images, its reflection is linked to the
images of what it was linked to. -/
theorem Placed.linked_relink {σ : Handle → Handle} {numbering numbering' : Numbering} {p : Placed}
    (h : ∀ n ∈ Node.targetIds p.data, Node.Agree σ numbering numbering' n) :
    (p.relink σ).linked numbering' = (p.linked numbering).relink σ := by
  have hbase : ∀ steps : List Node.LinkStep,
      (steps.map (Node.LinkStep.relink σ)).filterMap Node.LinkStep.base?
        = (steps.filterMap Node.LinkStep.base?).map σ := by
    intro steps
    rw [List.filterMap_map, List.map_filterMap]
    refine List.filterMap_congr fun s _ ↦ ?_
    cases s <;> rfl
  have hinherited : ∀ steps : List Node.LinkStep,
      (steps.map (Node.LinkStep.relink σ)).findSome? Node.LinkStep.inherited?
        = (steps.findSome? Node.LinkStep.inherited?).map σ := by
    intro steps
    rw [← findSome?_map_of_forall (f := Node.LinkStep.relink σ) fun s _ ↦ ?_]
    cases s <;> rfl
  have hlinks : Node.links numbering' (p.relink σ).data
      = (Node.links numbering p.data).map (Node.LinkStep.relink σ) := Node.links_relink h
  rw [linked, linked, hlinks]
  dsimp only [Trace.map]
  rw [hbase, hinherited]
  rfl

namespace Outline

variable {σ : Handle → Handle}

theorem handlesFrom_relink {start start' : Nat} {os : List Outline}
    (h : ∀ i < sizeAll os, σ (start + i) = start' + i) :
    handlesFrom start' os = (handlesFrom start os).map σ := by
  induction os generalizing start start' with
  | nil => rfl
  | cons o os ih =>
    have hpos := o.size_pos
    rw [sizeAll] at h
    have hself : σ start = start' := h 0 (by omega)
    rw [handlesFrom, handlesFrom, List.map_cons, hself]
    refine congrArg _ (ih fun i hi ↦ ?_)
    rw [Nat.add_assoc, Nat.add_assoc]
    exact h (o.size + i) (by omega)

mutual

/-- **A node that stands elsewhere** becomes the images of what it was. -/
theorem place_relink : ∀ (o : Outline) {parent : Option Handle} {start start' : Nat},
    (∀ i < o.size, σ (start + i) = start' + i) →
      place (parent.map σ) start' o = (place parent start o).map (Placed.relink σ)
  | node head data signatures children, parent, start, start', h => by
    rw [Outline.size] at h
    have hself : σ start = start' := h 0 (by omega)
    -- the node stands first in its stretch, then its signatures, then its children
    have hsigs : ∀ i < sizeAll signatures, σ (start + 1 + i) = start' + 1 + i := by
      intro i hi
      rw [Nat.add_assoc, Nat.add_assoc]
      exact h (1 + i) (by omega)
    have hkids : ∀ i < sizeAll children,
        σ (start + 1 + sizeAll signatures + i) = start' + 1 + sizeAll signatures + i := by
      intro i hi
      have hi' := h (1 + sizeAll signatures + i) (by omega)
      rwa [← Nat.add_assoc, ← Nat.add_assoc, ← Nat.add_assoc, ← Nat.add_assoc] at hi'
    rw [place, place, List.map_cons, List.map_append, ← placeAll_relink signatures hsigs,
      ← placeAll_relink children hkids, handlesFrom_relink hsigs, handlesFrom_relink hkids,
      Option.map_some, hself]
    rfl

theorem placeAll_relink : ∀ (os : List Outline) {parent : Option Handle} {start start' : Nat},
    (∀ i < sizeAll os, σ (start + i) = start' + i) →
      placeAll (parent.map σ) start' os = (placeAll parent start os).map (Placed.relink σ)
  | [], _, _, _, _ => rfl
  | o :: os, parent, start, start', h => by
    rw [sizeAll] at h
    rw [placeAll, placeAll, List.map_append, place_relink o fun i hi ↦ h i (by omega),
      placeAll_relink os fun i hi ↦ ?_]
    rw [Nat.add_assoc, Nat.add_assoc]
    exact h (o.size + i) (by omega)

end

/-! ## The nodes below a node -/

mutual

/-- The numbers and values of a node and those below it, in the order in which they are laid out. -/
def nodes : Outline → List (Int × Value)
  | node head data signatures children =>
    (head.id, data) :: (nodesAll signatures ++ nodesAll children)

/-- The numbers and values of several nodes and those below them. -/
def nodesAll : List Outline → List (Int × Value)
  | [] => []
  | o :: os => nodes o ++ nodesAll os

end

mutual

theorem map_place : ∀ (o : Outline) (parent : Option Handle) (start : Nat),
    (place parent start o).map (fun p ↦ (p.reflection.id, p.data)) = o.nodes
  | node head data signatures children, parent, start => by
    rw [place, List.map_cons, List.map_append, map_placeAll signatures, map_placeAll children, nodes]

theorem map_placeAll : ∀ (os : List Outline) (parent : Option Handle) (start : Nat),
    (placeAll parent start os).map (fun p ↦ (p.reflection.id, p.data)) = nodesAll os
  | [], _, _ => rfl
  | o :: os, parent, start => by
    rw [placeAll, List.map_append, map_place o, map_placeAll os, nodesAll]

end

theorem nodesAll_append (os os' : List Outline) :
    nodesAll (os ++ os') = nodesAll os ++ nodesAll os' := by
  induction os with
  | nil => rfl
  | cons o os ih => rw [List.cons_append, nodesAll, ih, nodesAll, List.append_assoc]

theorem placeAll_append (parent : Option Handle) (start : Nat) (os os' : List Outline) :
    placeAll parent start (os ++ os')
      = placeAll parent start os ++ placeAll parent (start + sizeAll os) os' := by
  induction os generalizing start with
  | nil => rfl
  | cons o os ih =>
    rw [List.cons_append, placeAll, ih, placeAll, sizeAll, List.append_assoc, Nat.add_assoc]

theorem nodesAll_eq_flatMap (os : List Outline) : nodesAll os = os.flatMap nodes := by
  induction os with
  | nil => rfl
  | cons o os ih => rw [nodesAll, ih, List.flatMap_cons]

theorem innerFirstAll_eq_flatMap (os : List Outline) : innerFirstAll os = os.flatMap innerFirst := by
  induction os with
  | nil => rfl
  | cons o os ih => rw [innerFirstAll, ih, List.flatMap_cons]

theorem length_nodesAll (os : List Outline) : (nodesAll os).length = sizeAll os := by
  rw [← map_placeAll os none 0, List.length_map, length_placeAll]

theorem sizeAll_append (os os' : List Outline) :
    sizeAll (os ++ os') = sizeAll os + sizeAll os' := by
  rw [← length_nodesAll, nodesAll_append, List.length_append, length_nodesAll, length_nodesAll]

/-- The numbers of nodes and of those below them, in the order in which they are laid out. -/
def ids (os : List Outline) : List Int := (nodesAll os).map Prod.fst

/-- The numbers that nodes and those below them name in their links. -/
def targetIds (os : List Outline) : List Int := (nodesAll os).flatMap fun n ↦ Node.targetIds n.2

end Outline

/-! ## Numberings -/

namespace Numbering

theorem numberingFrom_append (start : Nat) (ps qs : List Placed) :
    numberingFrom start (ps ++ qs)
      = numberingFrom start ps ++ numberingFrom (start + ps.length) qs := by
  induction ps generalizing start with
  | nil => rfl
  | cons p ps ih =>
    rw [List.cons_append, numberingFrom, ih, numberingFrom, List.length_cons, List.cons_append,
      Nat.add_assoc, Nat.add_comm 1]

/-- What a numbering holds: each number with the handle at which it stands. -/
theorem mem_numberingFrom {start h : Nat} {ps : List Placed} {n : Int} :
    (n, h) ∈ numberingFrom start ps
      ↔ ∃ i, h = start + i ∧ (ps.map fun p ↦ p.reflection.id)[i]? = some n := by
  induction ps generalizing start with
  | nil => simp [numberingFrom]
  | cons p ps ih =>
    rw [numberingFrom, List.mem_cons, ih]
    constructor
    · rintro (heq | ⟨i, hi, hn⟩)
      · cases heq
        exact ⟨0, rfl, rfl⟩
      · refine ⟨i + 1, by omega, ?_⟩
        rwa [List.map_cons, List.getElem?_cons_succ]
    · rintro ⟨i, hi, hn⟩
      cases i with
      | zero =>
        rw [List.map_cons, List.getElem?_cons_zero, Option.some.injEq] at hn
        rw [hi, ← hn]
        exact .inl rfl
      | succ i =>
        rw [List.map_cons, List.getElem?_cons_succ] at hn
        exact .inr ⟨i, by omega, hn⟩

theorem mem_of_handle?_eq_some {numbering : Numbering} {n : Int} {h : Handle}
    (hn : numbering.handle? n = some h) : (n, h) ∈ numbering := by
  obtain ⟨before, after, hsplit, -⟩ := List.lookup_eq_some_iff.mp hn
  rw [← List.mem_reverse, hsplit]
  exact List.mem_append_right _ List.mem_cons_self

theorem handle?_eq_none_iff {numbering : Numbering} {n : Int} :
    numbering.handle? n = none ↔ n ∉ numbering.map Prod.fst := by
  rw [handle?, List.lookup_eq_none_iff]
  simp only [List.mem_reverse, List.mem_map, not_exists, not_and, bne_iff_ne]
  exact forall_congr' fun e ↦ imp_congr_right fun _ ↦ ne_comm

/-- More numbers at the end only matter to those that ask for one of them. -/
theorem handle?_append {numbering more : Numbering} {n : Int} (hn : n ∉ more.map Prod.fst) :
    Numbering.handle? (numbering ++ more) n = numbering.handle? n := by
  have hmore := handle?_eq_none_iff.mpr hn
  rw [handle?] at hmore
  rw [handle?, List.reverse_append, List.lookup_append, hmore, Option.none_or]
  rfl

end Numbering

end RefCheck
