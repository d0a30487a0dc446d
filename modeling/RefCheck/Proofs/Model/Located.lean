import RefCheck.Model.OfFile
import RefCheck.Proofs.Check.Decides
import RefCheck.Proofs.Data.Decoded
import RefCheck.Proofs.Model.Preorder

/-!
# The lines of a model that was loaded

The line of a source is what a value in a file stands for, and the values of a file are modest. So no line of
a model that was loaded has more digits than are read, whichever reflection it belongs to:
`Model.isShort_line_of_ofFile`.
-/

namespace RefCheck

open Json

namespace Value

variable {v w : Value} {key : String}

theorem IsModest.get? (h : v.IsModest) (hw : v.get? key = some w) : w.IsModest := by
  cases v with
  | obj fields => exact h.of_lookup hw
  | null | bool | int | float | str | arr => cases hw

end Value

namespace Node

variable {node : Value}

/-! ## The fields of a node -/

theorem isShort_of_source {value : Value} (h : value.IsModest) {s : Source} (hs : source node value = .ok s) :
    IsShort s.line := by
  obtain ⟨_, -, hs⟩ := Fault.bind_eq_ok_iff.mp hs
  obtain ⟨given, hgiven, hs⟩ := Fault.bind_eq_ok_iff.mp hs
  obtain ⟨line, hline, hs⟩ := Fault.bind_eq_ok_iff.mp hs
  obtain ⟨_, -, hs⟩ := Fault.bind_eq_ok_iff.mp hs
  cases hs
  have hzero : (Value.int 0).IsModest := .int (isShort_iff.mpr (Nat.pow_pos (by decide)))
  obtain ⟨found, hfound, hline⟩ := Fault.bind_eq_ok_iff.mp hline
  cases found with
  | none =>
    obtain ⟨_, -, hline⟩ := Fault.bind_eq_ok_iff.mp hline
    cases hline
  | some n =>
    cases hline
    exact Value.isShort_of_whole? (h.field hzero hgiven) hfound

theorem isShort_of_head (h : node.IsModest) {head : Head} (hhead : Node.head node = .ok head) :
    ∀ s ∈ head.sources, IsShort s.line := by
  have hempty : (Value.arr []).IsModest := .arr fun v hv ↦ (List.not_mem_nil hv).elim
  -- what is read before the sources has no part in them
  obtain ⟨_, -, hhead⟩ := Fault.bind_eq_ok_iff.mp hhead
  obtain ⟨_, -, hhead⟩ := Fault.bind_eq_ok_iff.mp hhead
  obtain ⟨_, -, hhead⟩ := Fault.bind_eq_ok_iff.mp hhead
  obtain ⟨_, -, hhead⟩ := Fault.bind_eq_ok_iff.mp hhead
  obtain ⟨_, -, hhead⟩ := Fault.bind_eq_ok_iff.mp hhead
  obtain ⟨_, -, hhead⟩ := Fault.bind_eq_ok_iff.mp hhead
  obtain ⟨_, -, hhead⟩ := Fault.bind_eq_ok_iff.mp hhead
  obtain ⟨_, -, hhead⟩ := Fault.bind_eq_ok_iff.mp hhead
  obtain ⟨field, hfield, hhead⟩ := Fault.bind_eq_ok_iff.mp hhead
  obtain ⟨items, hitems, hhead⟩ := Fault.bind_eq_ok_iff.mp hhead
  obtain ⟨sources, hsources, hhead⟩ := Fault.bind_eq_ok_iff.mp hhead
  obtain ⟨_, -, hhead⟩ := Fault.bind_eq_ok_iff.mp hhead
  obtain ⟨_, -, hhead⟩ := Fault.bind_eq_ok_iff.mp hhead
  cases hhead
  intro s hs
  obtain ⟨value, hvalue, hsource⟩ := (mem_of_mapM_eq_ok hsources).mp hs
  exact isShort_of_source ((h.field hempty hfield).of_mem_items hitems hvalue) hsource

/-! ## The nodes below a node -/

theorem isModest_of_mem_oneOrMany {v : Option Value} (h : ∀ w ∈ v, w.IsModest) {x : Value}
    (hx : x ∈ oneOrMany v) : x.IsModest := by
  unfold oneOrMany at hx
  split at hx
  · rw [List.mem_singleton.mp hx]
    exact h _ rfl
  · exact (h _ rfl).of_mem_arr x hx
  · cases hx

theorem isModest_of_mem_nodesAt (h : node.IsModest) {field : String} {x : Value}
    (hx : x ∈ nodesAt field node) : x.IsModest :=
  isModest_of_mem_oneOrMany (fun _ hw ↦ h.get? hw) (arrayItems_subset _ hx)

theorem isModest_of_mem_signatureNodes (h : node.IsModest) {x : Value} (hx : x ∈ signatureNodes node) :
    x.IsModest := by
  rw [signatureNodes, List.mem_append, List.mem_append] at hx
  rcases hx with (hx | hx) | hx
  · exact isModest_of_mem_nodesAt h hx
  · exact isModest_of_mem_oneOrMany (fun _ hw ↦ h.get? hw) hx
  · exact isModest_of_mem_oneOrMany (fun _ hw ↦ h.get? hw) hx

theorem isModest_of_mem_childNodes (h : node.IsModest) {x : Value} (hx : x ∈ childNodes node) :
    x.IsModest := by
  rw [childNodes, List.mem_append, List.mem_append, List.mem_append] at hx
  rcases hx with ((hx | hx) | hx) | hx
  · exact isModest_of_mem_nodesAt h hx
  · exact isModest_of_mem_nodesAt h hx
  · exact isModest_of_mem_nodesAt h hx
  · unfold typeDeclaration at hx
    split at hx
    · next fields hdeclaration =>
      obtain ⟨type, htype, hfields⟩ := Option.bind_eq_some_iff.mp hdeclaration
      rw [List.mem_singleton.mp hx]
      exact (h.get? htype).get? hfields
    · cases hx

/-- All below a modest node is modest. -/
theorem isModest_of_mem_preorder (node : Value) (h : node.IsModest) : ∀ x ∈ preorder node, x.IsModest := by
  intro x hx
  rw [preorder_eq, List.mem_cons, List.mem_append, List.mem_flatMap, List.mem_flatMap] at hx
  rcases hx with rfl | ⟨y, hy, hx⟩ | ⟨y, hy, hx⟩
  · exact h
  · exact isModest_of_mem_preorder y (isModest_of_mem_signatureNodes h hy) x hx
  · exact isModest_of_mem_preorder y (isModest_of_mem_childNodes h hy) x hx
termination_by node.depth
decreasing_by
  · exact depth_lt_of_mem_signatureNodes hy
  · exact depth_lt_of_mem_childNodes hy

end Node

/-! ## Models -/

namespace Model

open Outline RefCheck.Log

variable {m : Model} {data : Value}

theorem isModest_nodeOf (h : data.IsModest) (k : Handle) : (nodeOf data k).IsModest := by
  rw [nodeOf]
  cases hk : (fileNodes data)[k]? with
  | none => exact .null
  | some x =>
    obtain ⟨top, htop, hx⟩ := List.mem_flatMap.mp (List.mem_of_getElem? hk)
    exact Node.isModest_of_mem_preorder top (Node.isModest_of_mem_nodesAt h htop) x hx

/-- Beyond what was laid out there are no sources. -/
theorem mem_walk_of_mem_sources {told : List Event} (hload : ofValue data = ⟨told, .ok m⟩) {k : Handle}
    {s : Source} (hs : s ∈ (m.get k).sources) : k ∈ m.walk := by
  obtain ⟨name, os, -, -, -, rfl⟩ := ofValue_eq_ok_iff.mp ⟨told, hload⟩
  rw [walk_ofOutlines, List.mem_range]
  by_contra hk
  have hsize : (ofOutlines name os).size = sizeAll os := by
    rw [ofOutlines, size_withOutlines]
    exact Nat.zero_add _
  have hbeyond : (ofOutlines name os).reflections.size ≤ k :=
    Nat.le_trans (Nat.le_of_eq hsize) (Nat.not_lt.mp hk)
  have hdefault : (ofOutlines name os).get k = default := by
    rw [Model.get, Array.getD_eq_getD_getElem?, Array.getElem?_eq_none hbeyond, Option.getD_none]
  rw [hdefault] at hs
  cases hs

/-- **The line of every source is short** in a model that comes of a modest value. -/
theorem isShort_line_of_ofValue {told : List Event} (h : data.IsModest)
    (hload : ofValue data = ⟨told, .ok m⟩) {k : Handle} {s : Source} (hs : s ∈ (m.get k).sources) :
    IsShort s.line := by
  have hhead := (unfolds_of_ofValue hload).head k (mem_walk_of_mem_sources hload hs)
  exact Node.isShort_of_head (isModest_nodeOf h k) hhead s hs

/-- What a file holds is modest. -/
theorem isModest_of_fileValue {path : String} {bytes : List UInt8} (h : fileValue path bytes = .ok data) :
    data.IsModest := by
  unfold fileValue at h
  split at h
  · cases h
  · split at h
    · cases h
    · next hdecode =>
      split at h
      · cases h
        exact isModest_of_decode hdecode
      · cases h

/-- **So is the line of every place that a loaded model tells.** -/
theorem isShort_line_of_ofFile {path : String} {bytes : Option (List UInt8)}
    (hload : (ofFile path bytes).result = .ok m) {k : Handle} {s : Source} (hs : m.sourceOf? k = some s) :
    IsShort s.line := by
  obtain ⟨j, -, hs⟩ := Check.mem_sources_of_sourceAlong hs
  unfold ofFile at hload
  split at hload
  · cases hload
  · split at hload
    · cases hload
    · next data hdata =>
      obtain ⟨told, htold⟩ : ∃ told, ofValue data = ⟨told, .ok m⟩ := by
        revert hload
        generalize ofValue data = loaded
        rcases loaded with ⟨told, _ | m'⟩
        · intro hload
          cases hload
        · intro hload
          cases hload
          exact ⟨told, rfl⟩
      exact isShort_line_of_ofValue (isModest_of_fileValue hdata) htold hs

end Model

end RefCheck
