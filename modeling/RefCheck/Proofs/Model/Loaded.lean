import RefCheck.Model.OfValue
import RefCheck.Proofs.Model.Tree

/-!
# Models of model files are trees

The nodes of a model file nest, and they are laid out owners first, so that the handles of what a node
holds follow its own. `walk_withOutlines` says that the walk over a loaded model is this order of the
handles itself, and `isTree_of_load` that every model which is loaded is a tree, whatever the links between
its types are.

A node and the nodes that it holds take up one stretch of handles. `Lays` says that a model has the
reflections of a list of nodes from some handle on; every statement below is about one such stretch and goes
by induction on the nesting.
-/

namespace RefCheck

open RefCheck.Log

namespace Outline

/-! ## Stretches of handles -/

mutual

theorem length_place (parent : Option Handle) (start : Nat) :
    ∀ o : Outline, (place parent start o).length = o.size
  | node head data signatures children => by
    rw [place, List.length_cons, List.length_append, length_placeAll, length_placeAll, size]
    omega

theorem length_placeAll (parent : Option Handle) (start : Nat) :
    ∀ os : List Outline, (placeAll parent start os).length = sizeAll os
  | [] => rfl
  | o :: os => by
    rw [placeAll, List.length_append, length_place, length_placeAll, sizeAll]

end

theorem size_pos : ∀ o : Outline, 0 < o.size
  | node _ _ signatures children => by
    rw [size]
    omega

theorem mem_handlesFrom_bounds {start h : Nat} {os : List Outline}
    (hh : h ∈ handlesFrom start os) : start ≤ h ∧ h < start + sizeAll os := by
  induction os generalizing start with
  | nil => cases hh
  | cons o os ih =>
    have hpos := o.size_pos
    rw [sizeAll]
    rcases List.mem_cons.mp hh with rfl | hh
    · omega
    · have := ih hh
      omega

/-! ## Reading a node -/

/-- Reading a node is reading its fields, then its signatures, then its children. -/
theorem ofValue_eq (node : Value) : ofValue node = do
    let head ← Node.head node
    let signatures ← (← Node.signatures node).mapM ofValue
    let children ← (← Node.children node).mapM ofValue
    return .node head node signatures children := by
  have hattach : ∀ xs : List Value, (xs.attach.mapM fun x ↦ ofValue x.1) = xs.mapM ofValue := by
    intro xs
    rw [List.mapM_subtype fun _ _ ↦ rfl, List.unattach_attach]
  rw [ofValue]
  cases Node.head node with
  | error f => rfl
  | ok head =>
    dsimp only [bind, Except.bind]
    split
    · next hsignatures => rw [hsignatures]
    · next sigs hsignatures =>
      rw [hsignatures, hattach]
      dsimp only
      cases sigs.mapM ofValue with
      | error f => rfl
      | ok signatures =>
        dsimp only
        split
        · next hchildren => rw [hchildren]
        · next kids hchildren =>
          rw [hchildren, hattach]
          dsimp only
          cases kids.mapM ofValue <;> rfl

/-- **An outline is read** by reading the node itself, then the nodes that it holds. -/
theorem ofValue_node_iff {node : Value} {o : Outline} :
    ofValue node = .ok o ↔ ∃ head sigNodes kidNodes signatures children,
      o = .node head node signatures children ∧ Node.head node = .ok head ∧
        Node.signatures node = .ok sigNodes ∧ sigNodes.mapM ofValue = .ok signatures ∧
        Node.children node = .ok kidNodes ∧ kidNodes.mapM ofValue = .ok children := by
  rw [ofValue_eq]
  simp only [Fault.bind_eq_ok_iff, pure, Except.pure, Except.ok.injEq]
  constructor
  · rintro ⟨head, hhead, sigNodes, hsigNodes, signatures, hsignatures, kidNodes, hkidNodes, children,
      hchildren, rfl⟩
    exact ⟨head, sigNodes, kidNodes, signatures, children, rfl, hhead, hsigNodes, hsignatures,
      hkidNodes, hchildren⟩
  · rintro ⟨head, sigNodes, kidNodes, signatures, children, rfl, hhead, hsigNodes, hsignatures,
      hkidNodes, hchildren⟩
    exact ⟨head, hhead, sigNodes, hsigNodes, signatures, hsignatures, kidNodes, hkidNodes, children,
      hchildren, rfl⟩

end Outline

namespace Model

open Outline

variable {m : Model} {numbering : Numbering}

/-- From a handle on, the model has the reflections of these nodes. -/
def Lays (m : Model) (numbering : Numbering) (start : Nat) (placed : List Placed) : Prop :=
  ∀ i p, placed[i]? = some p → m.get (start + i) = p.linked numbering

theorem Lays.head {start : Nat} {p : Placed} {ps : List Placed}
    (hl : m.Lays numbering start (p :: ps)) : m.get start = p.linked numbering := hl 0 p rfl

theorem Lays.tail {start : Nat} {p : Placed} {ps : List Placed}
    (hl : m.Lays numbering start (p :: ps)) : m.Lays numbering (start + 1) ps := by
  intro i q hq
  rw [Nat.add_assoc, Nat.add_comm 1 i]
  exact hl (i + 1) q hq

theorem Lays.left {start : Nat} {ps qs : List Placed} (hl : m.Lays numbering start (ps ++ qs)) :
    m.Lays numbering start ps := by
  intro i p hp
  obtain ⟨hi, -⟩ := List.getElem?_eq_some_iff.mp hp
  exact hl i p (by rw [List.getElem?_append_left hi, hp])

theorem Lays.right {start : Nat} {ps qs : List Placed} (hl : m.Lays numbering start (ps ++ qs)) :
    m.Lays numbering (start + ps.length) qs := by
  intro i q hq
  rw [Nat.add_assoc]
  refine hl (ps.length + i) q ?_
  rw [List.getElem?_append_right (Nat.le_add_right _ _), Nat.add_sub_cancel_left, hq]

/-- Where a node stands, its signatures and its children have stretches of their own. -/
private theorem Lays.parts {parent : Option Handle} {start : Nat} {head : Head} {data : Value}
    {signatures children : List Outline}
    (hl : m.Lays numbering start (place parent start (.node head data signatures children))) :
    m.Lays numbering (start + 1) (placeAll (some start) (start + 1) signatures) ∧
      m.Lays numbering (start + 1 + sizeAll signatures)
        (placeAll (some start) (start + 1 + sizeAll signatures) children) := by
  rw [place] at hl
  refine ⟨hl.tail.left, ?_⟩
  have hright := hl.tail.right
  rwa [length_placeAll] at hright

private theorem Lays.owned_eq {parent : Option Handle} {start : Nat} {head : Head} {data : Value}
    {signatures children : List Outline}
    (hl : m.Lays numbering start (place parent start (.node head data signatures children))) :
    m.owned start = handlesFrom (start + 1) signatures ++
      handlesFrom (start + 1 + sizeAll signatures) children := by
  rw [place] at hl
  rw [owned, hl.head]
  rfl

private theorem Lays.parent_eq {parent : Option Handle} {start : Nat} :
    ∀ {o : Outline}, m.Lays numbering start (place parent start o) → (m.get start).parent = parent
  | .node _ _ _ _, hl => by
    rw [place] at hl
    rw [hl.head]
    rfl

private theorem Lays.parent_of_mem {parent : Option Handle} {start h : Nat} {os : List Outline}
    (hl : m.Lays numbering start (placeAll parent start os)) (hh : h ∈ handlesFrom start os) :
    (m.get h).parent = parent := by
  induction os generalizing start with
  | nil => cases hh
  | cons o os ih =>
    rw [placeAll] at hl
    rcases List.mem_cons.mp hh with rfl | hh
    · exact hl.left.parent_eq
    · have hright := hl.right
      rw [length_place] at hright
      exact ih hright hh

/-! ## The walk over a stretch -/

mutual

/-- From where a node stands, the walk goes through the whole stretch of the node in order. -/
private theorem walkTo_place {levels : Nat} : ∀ (o : Outline) {parent : Option Handle}
    {start : Nat},
    m.Lays numbering start (place parent start o) → o.size ≤ levels →
      m.walkTo levels start = List.range' start o.size
  | .node head data signatures children, parent, start, hl, hsize => by
    rw [Outline.size] at hsize
    obtain ⟨levels, rfl⟩ : ∃ n, levels = n + 1 := ⟨levels - 1, by omega⟩
    obtain ⟨hsigs, hkids⟩ := hl.parts
    rw [walkTo, hl.owned_eq, List.flatMap_append, walkTo_placeAll signatures hsigs (by omega),
      walkTo_placeAll children hkids (by omega), List.range'_append_1, Outline.size, Nat.add_assoc,
      Nat.add_comm 1, List.range'_succ]

private theorem walkTo_placeAll {levels : Nat} : ∀ (os : List Outline) {parent : Option Handle}
    {start : Nat}, m.Lays numbering start (placeAll parent start os) → sizeAll os ≤ levels →
      (handlesFrom start os).flatMap (m.walkTo levels) = List.range' start (sizeAll os)
  | [], _, _, _, _ => rfl
  | o :: os, parent, start, hl, hsize => by
    rw [sizeAll] at hsize
    rw [placeAll] at hl
    have hright := hl.right
    rw [length_place] at hright
    rw [handlesFrom, List.flatMap_cons, walkTo_place o hl.left (by omega),
      walkTo_placeAll os hright (by omega), List.range'_append_1, sizeAll]

end

/-! ## Owners over a stretch -/

mutual

/-- In the stretch of a node every owner stands before what it owns, which knows its owner. -/
private theorem owned_place : ∀ (o : Outline) {parent : Option Handle} {start : Nat},
    m.Lays numbering start (place parent start o) → ∀ h k : Nat, start ≤ h → h < start + o.size →
      k ∈ m.owned h → h < k ∧ k < start + o.size ∧ (m.get k).parent = some h
  | .node head data signatures children, parent, start, hl, h, k, hge, hlt, hk => by
    obtain ⟨hsigs, hkids⟩ := hl.parts
    rw [Outline.size] at hlt ⊢
    -- the node itself, or one in the stretch of what it holds
    rcases Nat.eq_or_lt_of_le hge with rfl | hgt
    · rw [hl.owned_eq, List.mem_append] at hk
      rcases hk with hk | hk
      · have hb := mem_handlesFrom_bounds hk
        exact ⟨by omega, by omega, hsigs.parent_of_mem hk⟩
      · have hb := mem_handlesFrom_bounds hk
        exact ⟨by omega, by omega, hkids.parent_of_mem hk⟩
    · by_cases hin : h < start + 1 + sizeAll signatures
      · obtain ⟨hlt', hle, hp⟩ := owned_placeAll signatures hsigs h k hgt hin hk
        exact ⟨hlt', by omega, hp⟩
      · obtain ⟨hlt', hle, hp⟩ :=
          owned_placeAll children hkids h k (by omega) (by omega) hk
        exact ⟨hlt', by omega, hp⟩

private theorem owned_placeAll : ∀ (os : List Outline) {parent : Option Handle} {start : Nat},
    m.Lays numbering start (placeAll parent start os) → ∀ h k : Nat, start ≤ h →
      h < start + sizeAll os →
      k ∈ m.owned h → h < k ∧ k < start + sizeAll os ∧ (m.get k).parent = some h
  | [], _, start, _, h, _, hge, hlt, _ => by
    rw [sizeAll] at hlt
    omega
  | o :: os, parent, start, hl, h, k, hge, hlt, hk => by
    rw [sizeAll] at hlt ⊢
    rw [placeAll] at hl
    have hright := hl.right
    rw [length_place] at hright
    by_cases hin : h < start + o.size
    · obtain ⟨hlt', hle, hp⟩ := owned_place o hl.left h k hge hin hk
      exact ⟨hlt', by omega, hp⟩
    · obtain ⟨hlt', hle, hp⟩ := owned_placeAll os hright h k (by omega) (by omega) hk
      exact ⟨hlt', by omega, hp⟩

end

/-- A way down from a stretch stays in it and goes on by at least one handle each level. -/
private theorem Lays.leads {start h k : Nat} {os : List Outline} {n : Nat}
    (hl : m.Lays numbering start (placeAll none start os)) (hge : start ≤ h)
    (hlt : h < start + sizeAll os) (hk : m.Leads n h k) : h + n ≤ k ∧ k < start + sizeAll os := by
  induction hk with
  | here h => exact ⟨Nat.le_refl _, hlt⟩
  | @down n h l k hl' _ ih =>
    obtain ⟨hlt', hle, -⟩ := owned_placeAll os hl h l hge hlt hl'
    obtain ⟨hk, hk'⟩ := ih (by omega) hle
    exact ⟨by omega, hk'⟩

/-! ## Loading -/

/-- The outline of a node that holds no other nodes. -/
theorem ofValue_leaf {node : Value} {head : Head} (hhead : Node.head node = .ok head)
    (hsignatures : Node.signatures node = .ok []) (hchildren : Node.children node = .ok []) :
    Outline.ofValue node = .ok (.node head node [] []) := by
  rw [Outline.ofValue_eq, hhead, hsignatures, hchildren]
  rfl

theorem size_withOutlines (m : Model) (name : String) (outlines : List Outline) :
    (m.withOutlines name outlines).2.size = m.size + sizeAll outlines := by
  simp [withOutlines, size, length_placeAll]

theorem lays_withOutlines (m : Model) (name : String) (outlines : List Outline) :
    (m.withOutlines name outlines).2.Lays (numberingFrom m.size (placeAll none m.size outlines))
      m.size (placeAll none m.size outlines) := by
  intro i p hp
  have hget : (m.reflections ++ ((placeAll none m.size outlines).map
      (Placed.linked (numberingFrom m.size (placeAll none m.size outlines)))).toArray)[m.size + i]?
      = some (p.linked (numberingFrom m.size (placeAll none m.size outlines))) := by
    have hle : m.reflections.size ≤ m.size + i := Nat.le_add_right _ _
    have hsub : m.size + i - m.reflections.size = i := Nat.add_sub_cancel_left _ _
    rw [Array.getElem?_append_right hle, hsub, List.getElem?_toArray, List.getElem?_map, hp,
      Option.map_some]
  rw [withOutlines, get, Array.getD_eq_getD_getElem?, hget, Option.getD_some]

/-- **The walk over a loaded model is the order of its handles.** -/
theorem walk_withOutlines (m : Model) (name : String) (outlines : List Outline) :
    (m.withOutlines name outlines).2.walk = List.range' m.size (sizeAll outlines) := by
  have hroots : (m.withOutlines name outlines).2.roots = handlesFrom m.size outlines := rfl
  rw [walk, hroots]
  refine walkTo_placeAll outlines (lays_withOutlines m name outlines) ?_
  rw [size_withOutlines]
  exact Nat.le_add_left _ _

/-- **Outlines become a tree.** Neither the links between types nor the reflections that were there before
matter. -/
theorem isTree_withOutlines (m : Model) (name : String) (outlines : List Outline) :
    (m.withOutlines name outlines).2.IsTree := by
  have hlays := lays_withOutlines m name outlines
  refine ⟨?_, ?_, ?_, ?_⟩
  · rw [isEndless_eq_false_iff]
    intro r hr k hk
    have hb := mem_handlesFrom_bounds hr
    have hlong := hlays.leads hb.1 hb.2 hk
    rw [size_withOutlines] at hlong
    omega
  · rw [walk_withOutlines]
    exact List.nodup_range'
  · exact fun r hr ↦ hlays.parent_of_mem hr
  · intro h hh k hk
    rw [walk_withOutlines, List.mem_range'_1] at hh
    exact (owned_placeAll outlines hlays h k hh.1 hh.2 hk).2.2

/-- **Every model of a file is a tree.** -/
theorem isTree_of_load {m loaded : Model} {data : Value} {events : List Event}
    (h : m.load data = ⟨events, .ok loaded⟩) : loaded.IsTree := by
  unfold load at h
  split at h
  · cases h
  · split at h
    · cases h
    · next name _ _ outlines _ =>
      dsimp only at h
      split at h
      · cases h
      · cases h
        exact isTree_withOutlines m name outlines

end Model

end RefCheck
