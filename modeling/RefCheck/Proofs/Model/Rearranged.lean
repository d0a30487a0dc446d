import Mathlib.Data.List.Flatten
import Mathlib.Data.List.Perm.Basic
import RefCheck.Proofs.Model.Nodes

/-!
# Files with another top level

Two ways to change a model file, and where its model is found again afterwards.

* A node is added at the end of the top level. If no node names one of its new numbers then everything keeps
  its handle and its links (`embeds_append`).
* The nodes of the top level change places. If no number stands for two nodes then each reflection is found
  again where its number stands now (`embeds_perm`).

Both go by the outlines of the file: a model that is loaded is a model of its outlines, whose walk is the order
of the handles (`ofValue_eq_ok_iff`, `walk_ofOutlines`).
-/

namespace RefCheck

open RefCheck.Log

/-- Setting a field changes that field only. -/
theorem Value.lookup_setField (key k : String) (value : Value) (fields : List (String × Value)) :
    (setField key value fields).lookup k = if k = key then some value else fields.lookup k := by
  induction fields with
  | nil =>
    by_cases hk : k = key
    · simp [setField, hk]
    · simp [setField, List.lookup_cons, beq_eq_false_iff_ne.mpr hk, hk]
  | cons field fields ih =>
    obtain ⟨name, v⟩ := field
    rw [setField]
    by_cases hname : name = key
    · subst hname
      by_cases hk : k = name
      · simp [hk]
      · simp [List.lookup_cons, hk, beq_eq_false_iff_ne.mpr hk]
    · by_cases hk : k = name
      · subst hk
        simp [hname]
      · rw [if_neg hname, List.lookup_cons, List.lookup_cons, beq_eq_false_iff_ne.mpr hk, ih]

/-! ## The top level of a file -/

/-- The nodes at the top level of a file. -/
def topNodes (data : Value) : Except Fault (List Value) := do
  (← data.field "children" (.arr [])).items

/-- The file with other nodes at its top level. -/
def withTopNodes (data : Value) (nodes : List Value) : Value :=
  match data with
  | .obj fields => .obj (Value.setField "children" (.arr nodes) fields)
  | other => other

theorem projectName_withTopNodes (data : Value) (nodes : List Value) :
    projectName (withTopNodes data nodes) = projectName data := by
  cases data with
  | obj fields =>
    have hname : ¬"name" = "children" := by decide
    rw [withTopNodes, projectName, projectName, Value.field, Value.field, Value.lookup_setField,
      if_neg hname]
  | _ => rfl

theorem topLevel_withTopNodes {data : Value} {old nodes : List Value}
    (hold : topNodes data = .ok old) :
    Outline.topLevel (withTopNodes data nodes) = nodes.mapM Outline.ofValue := by
  cases data with
  | obj fields =>
    rw [withTopNodes, Outline.topLevel, Value.field, Value.lookup_setField, if_pos rfl]
    rfl
  | _ => cases hold

theorem topLevel_eq {data : Value} {nodes : List Value} (h : topNodes data = .ok nodes) :
    Outline.topLevel data = nodes.mapM Outline.ofValue := by
  obtain ⟨children, hfield, hitems⟩ := Fault.bind_eq_ok_iff.mp h
  rw [Outline.topLevel, hfield]
  simp only [bind, Except.bind, hitems]

/-- Of a list that changes its order, what is read of the items changes its order in the same way. -/
theorem exists_mapM_of_perm {α β : Type} {f : α → Except Fault β} {xs xs' : List α} {ys : List β}
    (hperm : xs.Perm xs') (h : xs.mapM f = .ok ys) : ∃ ys', xs'.mapM f = .ok ys' ∧ ys.Perm ys' := by
  induction hperm generalizing ys with
  | nil => exact ⟨ys, h, .refl ys⟩
  | cons x _ ih =>
    obtain ⟨y, rest, hx, hrest, rfl⟩ := mapM_cons_eq_ok_iff.mp h
    obtain ⟨rest', hrest', hperm⟩ := ih hrest
    exact ⟨y :: rest', mapM_cons_eq_ok_iff.mpr ⟨y, rest', hx, hrest', rfl⟩, hperm.cons y⟩
  | swap x x' xs =>
    obtain ⟨y', rest', hx', hrest', rfl⟩ := mapM_cons_eq_ok_iff.mp h
    obtain ⟨y, rest, hx, hrest, rfl⟩ := mapM_cons_eq_ok_iff.mp hrest'
    have hmapM : (x' :: xs).mapM f = .ok (y' :: rest) :=
      mapM_cons_eq_ok_iff.mpr ⟨y', rest, hx', hrest, rfl⟩
    exact ⟨y :: y' :: rest, mapM_cons_eq_ok_iff.mpr ⟨y, _, hx, hmapM, rfl⟩, .swap _ _ _⟩
  | trans _ _ ih ih' =>
    obtain ⟨zs, hzs, hperm⟩ := ih h
    obtain ⟨ys', hys', hperm'⟩ := ih' hzs
    exact ⟨ys', hys', hperm.trans hperm'⟩

/-! ## Models of outlines -/

namespace Outline

/-- What is laid out for the top level of a file. -/
def laid (os : List Outline) : List Placed := placeAll none 0 os

/-- The handles of a file by number. -/
def numbering (os : List Outline) : Numbering := numberingFrom 0 (laid os)

theorem ids_eq_map_laid (os : List Outline) : ids os = (laid os).map fun p ↦ p.reflection.id := by
  rw [ids, ← map_placeAll os none 0, List.map_map]
  rfl

theorem targetIds_eq_flatMap_laid (os : List Outline) :
    targetIds os = (laid os).flatMap fun p ↦ Node.targetIds p.data := by
  rw [targetIds, ← map_placeAll os none 0, List.flatMap_map]
  rfl

theorem map_fst_numberingFrom (start : Nat) (ps : List Placed) :
    (numberingFrom start ps).map Prod.fst = ps.map fun p ↦ p.reflection.id := by
  induction ps generalizing start with
  | nil => rfl
  | cons p ps ih => rw [numberingFrom, List.map_cons, ih, List.map_cons]

/-- A number leads to a node that has it. -/
theorem getElem?_ids_of_handle? {os : List Outline} {n : Int} {h : Nat}
    (hn : (numbering os).handle? n = some h) : (ids os)[h]? = some n := by
  obtain ⟨i, hi, hid⟩ := Numbering.mem_numberingFrom.mp (Numbering.mem_of_handle?_eq_some hn)
  rwa [hi, Nat.zero_add, ids_eq_map_laid]

theorem handle?_eq_none_iff {os : List Outline} {n : Int} :
    (numbering os).handle? n = none ↔ n ∉ ids os := by
  rw [Numbering.handle?_eq_none_iff, numbering, map_fst_numberingFrom, ids_eq_map_laid]

/-- If no number stands for two nodes, then a number leads to the node that has it. -/
theorem handle?_eq_some_iff {os : List Outline} (hd : (ids os).Nodup) {n : Int} {h : Nat} :
    (numbering os).handle? n = some h ↔ (ids os)[h]? = some n := by
  refine ⟨getElem?_ids_of_handle?, fun hid ↦ ?_⟩
  cases hk : (numbering os).handle? n with
  | none => exact absurd (List.mem_of_getElem? hid) (handle?_eq_none_iff.mp hk)
  | some k =>
    have hboth := (getElem?_ids_of_handle? hk).trans hid.symm
    have hlt : k < (ids os).length := (List.getElem?_eq_some_iff.mp (getElem?_ids_of_handle? hk)).1
    rw [(List.getElem?_inj hlt hd).mp hboth]

theorem ids_perm {os os' : List Outline} (hperm : os.Perm os') : (ids os).Perm (ids os') := by
  rw [ids, ids, nodesAll_eq_flatMap, nodesAll_eq_flatMap]
  exact (hperm.flatMap_right nodes).map Prod.fst

end Outline

namespace Model

open Outline

/-- The model of the outlines of a file. -/
def ofOutlines (name : String) (os : List Outline) : Model := ((empty "").withOutlines name os).2

/-- No fault stops the linking of a file. -/
def Links (os : List Outline) : Prop :=
  ∀ node ∈ innerFirstAll os, (Node.links (numbering os) node.2).fault = none

/-- **Loading a file** is making a model of its outlines, if nothing stops it. -/
theorem ofValue_eq_ok_iff {data : Value} {m : Model} :
    (∃ told, ofValue data = ⟨told, .ok m⟩) ↔ ∃ name os, projectName data = .ok name ∧
      topLevel data = .ok os ∧ Links os ∧ m = ofOutlines name os := by
  have hlinks : ∀ name os, ((empty "").withOutlines name os).1.fault = none ↔ Links os :=
    fun name os ↦ Trace.fault_forEach_eq_none_iff
  rw [ofValue, load]
  cases projectName data with
  | error f => simp
  | ok name =>
    cases topLevel data with
    | error f => simp
    | ok os =>
      have hfault := hlinks name os
      simp only [Except.ok.injEq]
      cases hf : ((empty "").withOutlines name os).1.fault with
      | some f =>
        rw [hf] at hfault
        have hnot : ¬Links os := fun h ↦ by cases hfault.mpr h
        simp [hnot]
      | none =>
        have hok : Links os := hfault.mp hf
        simp [hok, ofOutlines, eq_comm]

variable {name name' : String} {os os' more : List Outline}

theorem walk_ofOutlines (name : String) (os : List Outline) :
    (ofOutlines name os).walk = List.range (sizeAll os) := by
  rw [List.range_eq_range']
  exact walk_withOutlines (empty "") name os

theorem walk_ofOutlines_append (name name' : String) (os more : List Outline) :
    (ofOutlines name' (os ++ more)).walk
      = (ofOutlines name os).walk ++ List.range' (sizeAll os) (sizeAll more) := by
  have hsplit := List.range'_append_1 (s := 0) (m := sizeAll os) (n := sizeAll more)
  rw [Nat.zero_add] at hsplit
  rw [walk_ofOutlines, walk_ofOutlines, sizeAll_append, List.range_eq_range', List.range_eq_range',
    hsplit]

theorem get_ofOutlines {h : Nat} {p : Placed} (hp : (laid os)[h]? = some p) :
    (ofOutlines name os).get h = p.linked (numbering os) := by
  have hlays := lays_withOutlines (empty "") name os h p hp
  rwa [show (empty "").size + h = h from Nat.zero_add h] at hlays

theorem exists_laid_of_mem_walk {h : Handle} (hh : h ∈ (ofOutlines name os).walk) :
    ∃ p, (laid os)[h]? = some p := by
  rw [walk_ofOutlines, List.mem_range, ← length_placeAll none 0 os] at hh
  exact ⟨_, List.getElem?_eq_getElem hh⟩

theorem map_id_walk (name : String) (os : List Outline) :
    (ofOutlines name os).walk.map (fun h ↦ ((ofOutlines name os).get h).id) = ids os := by
  refine List.ext_getElem? fun h ↦ ?_
  rw [walk_ofOutlines, List.getElem?_map, ids_eq_map_laid, List.getElem?_map]
  cases hp : (laid os)[h]? with
  | none =>
    have hle : sizeAll os ≤ h := by
      rw [← length_placeAll none 0 os]
      exact List.getElem?_eq_none_iff.mp hp
    rw [List.getElem?_eq_none (by rwa [List.length_range])]
    rfl
  | some p =>
    have hlt : h < sizeAll os := by
      rw [← length_placeAll none 0 os]
      exact (List.getElem?_eq_some_iff.mp hp).1
    rw [List.getElem?_range hlt, Option.map_some, Option.map_some, get_ofOutlines hp]
    rfl

/-- **Models of files are closed**: what is no node of the file is no base. -/
theorem isClosed_ofOutlines (name : String) (os : List Outline) : (ofOutlines name os).IsClosed where
  toIsTree := isTree_withOutlines (empty "") name os
  lt_size := by
    intro h hh
    rw [walk_ofOutlines, List.mem_range] at hh
    have hsize := size_withOutlines (empty "") name os
    exact lt_of_lt_of_eq hh (hsize.trans (Nat.zero_add _)).symm
  mem_walk_of_base := by
    intro h hh b hb
    obtain ⟨p, hp⟩ := exists_laid_of_mem_walk hh
    rw [get_ofOutlines hp] at hb
    obtain ⟨s, hs, hbase⟩ := List.mem_filterMap.mp hb
    obtain ⟨n, hn⟩ := Node.exists_handle?_of_base hs hbase
    obtain ⟨hlt, -⟩ := List.getElem?_eq_some_iff.mp (getElem?_ids_of_handle? hn)
    rwa [walk_ofOutlines, List.mem_range, ← length_nodesAll, ← List.length_map Prod.fst]

/-! ## Adding nodes -/

/-- **A model with more nodes at its end.** If no node names one of the new numbers, everything that was there
stays as it was. -/
theorem embeds_append (hfresh : ∀ i ∈ ids more, i ∉ targetIds os) :
    Embeds (fun h ↦ h) (ofOutlines name os) (ofOutlines name' (os ++ more)) := by
  have hlaid : laid (os ++ more) = laid os ++ placeAll none (sizeAll os) more := by
    rw [laid, placeAll_append, Nat.zero_add, laid]
  have hids : ((numberingFrom (laid os).length (placeAll none (sizeAll os) more)).map Prod.fst)
      = ids more := by
    rw [map_fst_numberingFrom, ids, ← map_placeAll more none (sizeAll os), List.map_map]
    rfl
  -- of two nodes with one number the last counts, so a new number must not be asked for
  have hagree : ∀ n ∈ targetIds os,
      Node.Agree (fun h ↦ h) (numbering os) (numbering (os ++ more)) n := by
    intro n hn
    have hnew : n ∉ ids more := fun hmore ↦ hfresh n hmore hn
    rw [Node.Agree, Option.map_id', numbering, hlaid, Numbering.numberingFrom_append, Nat.zero_add]
    exact Numbering.handle?_append (by rwa [hids])
  refine ⟨isClosed_ofOutlines name os, isClosed_ofOutlines name' _, ?_, fun _ _ _ _ heq ↦ heq, ?_⟩
  · intro h hh
    rw [walk_ofOutlines_append name name']
    exact List.mem_append_left _ hh
  · intro h hh
    obtain ⟨p, hp⟩ := exists_laid_of_mem_walk hh
    obtain ⟨hlt, -⟩ := List.getElem?_eq_some_iff.mp hp
    have hp' : (laid (os ++ more))[h]? = some p := by
      rw [hlaid, List.getElem?_append_left hlt, hp]
    have hself : p.relink (fun h ↦ h) = p := by
      rw [Placed.relink, Reflection.relink_self]
    rw [get_ofOutlines hp, get_ofOutlines hp', ← Placed.linked_relink fun n hn ↦ ?_, hself]
    refine hagree n ?_
    rw [targetIds_eq_flatMap_laid]
    exact List.mem_flatMap.mpr ⟨p, List.mem_of_getElem? hp, hn⟩

/-! ## Changing places -/

/-- The reflection of the same number in another model. -/
def counterpart (m m' : Model) (h : Handle) : Handle :=
  (m'.walk.find? fun k ↦ (m'.get k).id == (m.get h).id).getD h

/-- No number stands for two reflections. -/
def DistinctIds (m : Model) : Prop := (m.walk.map fun h ↦ (m.get h).id).Nodup

theorem DistinctIds.eq_of_id_eq {m : Model} (hd : m.DistinctIds) {h k : Handle} (hh : h ∈ m.walk)
    (hk : k ∈ m.walk) (hid : (m.get h).id = (m.get k).id) : h = k :=
  List.inj_on_of_nodup_map hd hh hk hid

theorem counterpart_eq {m m' : Model} (hd : m'.DistinctIds) {h k : Handle} (hk : k ∈ m'.walk)
    (hid : (m'.get k).id = (m.get h).id) : m.counterpart m' h = k := by
  rw [counterpart]
  cases hfound : m'.walk.find? fun k ↦ (m'.get k).id == (m.get h).id with
  | none =>
    have hnone := List.find?_eq_none.mp hfound k hk
    rw [hid] at hnone
    simp at hnone
  | some l =>
    have hl : ((m'.get l).id == (m.get h).id) = true :=
      List.find?_some (p := fun k ↦ (m'.get k).id == (m.get h).id) hfound
    have hl := beq_iff_eq.mp hl
    exact hd.eq_of_id_eq (List.mem_of_find?_eq_some hfound) hk (hl.trans hid.symm)

/-- A handle of a file is one in the stretch of a node at the top level. -/
theorem exists_block {h : Nat} (hh : h < sizeAll os) :
    ∃ before o after i, os = before ++ o :: after ∧ i < o.size ∧ h = sizeAll before + i := by
  induction os generalizing h with
  | nil => exact absurd hh (Nat.not_lt_zero _)
  | cons o os ih =>
    rw [sizeAll] at hh
    -- in the stretch of the first node, or of one after it
    by_cases hin : h < o.size
    · exact ⟨[], o, os, h, rfl, hin, (Nat.zero_add h).symm⟩
    · obtain ⟨before, o', after, i, rfl, hi, hat⟩ := ih (h := h - o.size) (by omega)
      refine ⟨o :: before, o', after, i, rfl, hi, ?_⟩
      rw [sizeAll]
      omega

/-- The stretch of a node at the top level. -/
theorem getElem?_laid_block {before after : List Outline} {o : Outline} {i : Nat} (hi : i < o.size) :
    (laid (before ++ o :: after))[sizeAll before + i]? = (place none (sizeAll before) o)[i]? := by
  rw [laid, placeAll_append, placeAll, Nat.zero_add,
    List.getElem?_append_right (by rw [length_placeAll]; exact Nat.le_add_right _ _),
    length_placeAll, Nat.add_sub_cancel_left,
    List.getElem?_append_left (by rwa [length_place])]

theorem getElem?_ids_block {before after : List Outline} {o : Outline} {i : Nat} (hi : i < o.size) :
    (ids (before ++ o :: after))[sizeAll before + i]? = (o.nodes.map Prod.fst)[i]? := by
  rw [ids_eq_map_laid, List.getElem?_map, getElem?_laid_block hi, ← map_place o none (sizeAll before),
    List.map_map, List.getElem?_map]
  rfl

theorem distinctIds_ofOutlines : (ofOutlines name os).DistinctIds ↔ (ids os).Nodup := by
  rw [DistinctIds, map_id_walk]

/-- The number of a reflection of a file. -/
theorem getElem?_ids {h : Handle} (hh : h ∈ (ofOutlines name os).walk) :
    (ids os)[h]? = some ((ofOutlines name os).get h).id := by
  rw [← map_id_walk name os, List.getElem?_map]
  rw [walk_ofOutlines] at hh ⊢
  rw [List.getElem?_range (List.mem_range.mp hh)]
  rfl

/-- Where a number stands in one file and in the other, there is the counterpart. -/
theorem counterpart_eq_of_getElem? (hd : (ids os').Nodup) {h k : Nat} {n : Int}
    (hh : (ids os)[h]? = some n) (hk : (ids os')[k]? = some n) :
    counterpart (ofOutlines name os) (ofOutlines name' os') h = k := by
  have hwalk : ∀ {name os} {h : Nat} {n : Int}, (ids os)[h]? = some n →
      h ∈ (ofOutlines name os).walk := by
    intro name os h n hn
    obtain ⟨hlt, -⟩ := List.getElem?_eq_some_iff.mp hn
    rwa [walk_ofOutlines, List.mem_range, ← length_nodesAll, ← List.length_map Prod.fst]
  refine counterpart_eq (distinctIds_ofOutlines.mpr hd) (hwalk hk) (Option.some.inj ?_)
  rw [← getElem?_ids (hwalk hk), ← getElem?_ids (hwalk hh), hh, hk]

/-- Each handle of a file is led to where its number stands in another file. -/
def LeadsById (σ : Handle → Handle) (os os' : List Outline) : Prop :=
  ∀ (h k : Nat) (n : Int), (ids os)[h]? = some n → (ids os')[k]? = some n → σ h = k

section

variable {σ : Handle → Handle} (hperm : os.Perm os') (hd : (ids os).Nodup)
  (hσ : LeadsById σ os os')

include hperm hd hσ

private theorem agree_of_perm (n : Int) : Node.Agree σ (numbering os) (numbering os') n := by
  have hmem : n ∈ ids os ↔ n ∈ ids os' := (ids_perm hperm).mem_iff
  rw [Node.Agree]
  cases hn : (numbering os).handle? n with
  | none => exact handle?_eq_none_iff.mpr (mt hmem.mpr (handle?_eq_none_iff.mp hn))
  | some h =>
    have hh := getElem?_ids_of_handle? hn
    obtain ⟨k, hk⟩ := List.getElem?_of_mem (hmem.mp (List.mem_of_getElem? hh))
    rw [Option.map_some, hσ h k n hh hk]
    exact (handle?_eq_some_iff ((ids_perm hperm).nodup hd)).mpr hk

omit hd in
/-- Each reflection stands in the stretch of a node that is there in both files. -/
private theorem exists_laid_of_perm {h : Handle} (hh : h ∈ (ofOutlines name os).walk) :
    ∃ p, (laid os)[h]? = some p ∧ (laid os')[σ h]? = some (p.relink σ) := by
  rw [walk_ofOutlines, List.mem_range] at hh
  obtain ⟨before, o, after, i, rfl, hi, rfl⟩ := exists_block hh
  obtain ⟨before', after', rfl⟩ :=
    List.append_of_mem (hperm.subset (List.mem_append_right _ List.mem_cons_self))
  have hstart : ∀ j < o.size, σ (sizeAll before + j) = sizeAll before' + j := by
    intro j hj
    have hlen : j < (o.nodes.map Prod.fst).length := by
      rwa [List.length_map, ← map_place o none 0, List.length_map, length_place]
    have hid := List.getElem?_eq_getElem hlen
    exact hσ _ _ _ ((getElem?_ids_block hj).trans hid) ((getElem?_ids_block hj).trans hid)
  have hplace : place none (sizeAll before') o = (place none (sizeAll before) o).map (Placed.relink σ) :=
    @place_relink σ o none _ _ hstart
  have hlen : i < (place none (sizeAll before) o).length := by rwa [length_place]
  refine ⟨(place none (sizeAll before) o)[i], ?_, ?_⟩
  · rw [getElem?_laid_block hi, List.getElem?_eq_getElem hlen]
  · rw [hstart i hi, getElem?_laid_block hi, hplace, List.getElem?_map,
      List.getElem?_eq_getElem hlen, Option.map_some]

/-- **A model whose nodes changed places.** If no number stands for two nodes, each reflection is found again
where its number stands now. -/
theorem embeds_of_leadsById : Embeds σ (ofOutlines name os) (ofOutlines name' os') := by
  have hget : ∀ h ∈ (ofOutlines name os).walk,
      (ofOutlines name' os').get (σ h) = ((ofOutlines name os).get h).relink σ := by
    intro h hh
    obtain ⟨p, hp, hp'⟩ := exists_laid_of_perm hperm hσ hh
    rw [get_ofOutlines hp, get_ofOutlines hp']
    exact Placed.linked_relink fun n _ ↦ agree_of_perm hperm hd hσ n
  refine ⟨isClosed_ofOutlines name os, isClosed_ofOutlines name' os', ?_, ?_, hget⟩
  · intro h hh
    obtain ⟨p, -, hp⟩ := exists_laid_of_perm hperm hσ hh
    obtain ⟨hlt, -⟩ := List.getElem?_eq_some_iff.mp hp
    rwa [walk_ofOutlines, List.mem_range, ← length_placeAll none 0 os']
  · -- images keep their numbers, and these are told apart
    intro h hh k hk heq
    refine (distinctIds_ofOutlines.mpr hd).eq_of_id_eq hh hk ?_
    have hid := congrArg Reflection.id ((hget h hh).symm.trans ((congrArg _ heq).trans (hget k hk)))
    exact hid

end

/-- Nothing stops the linking of nodes that changed places if nothing did before. -/
theorem links_perm (hperm : os.Perm os') (hd : (ids os).Nodup) (hlinks : Links os) : Links os' := by
  intro node hnode
  have hagree := agree_of_perm (σ := counterpart (ofOutlines "" os) (ofOutlines "" os')) hperm hd
    fun _ _ _ ↦ counterpart_eq_of_getElem? ((ids_perm hperm).nodup hd)
  have hold : node ∈ innerFirstAll os := by
    rw [innerFirstAll_eq_flatMap] at hnode ⊢
    exact (hperm.flatMap_right innerFirst).mem_iff.mpr hnode
  rw [Node.links_relink fun n _ ↦ hagree n]
  exact hlinks node hold

theorem embeds_perm (hperm : os.Perm os') (hd : (ids os).Nodup) :
    Embeds (counterpart (ofOutlines name os) (ofOutlines name' os')) (ofOutlines name os)
      (ofOutlines name' os') :=
  embeds_of_leadsById hperm hd fun _ _ _ ↦ counterpart_eq_of_getElem? ((ids_perm hperm).nodup hd)

/-! ## Files of modules -/

/-- A module by its number, its name and the link that its comment has. -/
abbrev Linking := Int × String × String

/-- The node of such a module. -/
def moduleNode (l : Linking) : Value :=
  .obj [("id", .int l.1), ("name", .str l.2.1), ("kind", .int 2),
    ("sources", .arr [.obj [("fileName", .str "a.ts"), ("line", .int 1)]]),
    ("comment", .obj [("summary", .arr [.obj [("kind", .str "inline-tag"), ("tag", .str "@link"),
      ("text", .str l.2.2)]])])]

/-- Its outline. -/
def moduleOutline (l : Linking) : Outline :=
  .node ⟨l.1, l.2.1, .module, some ⟨[⟨.inlineTag, l.2.2, .str "@link"⟩], []⟩, [⟨"a.ts", 1, .null⟩],
    false⟩ (moduleNode l) [] []

/-- A model file of such modules. -/
def fileOfModules (ls : List Linking) : Value :=
  .obj [("name", .str "p"), ("children", .arr (ls.map moduleNode))]

theorem mapM_moduleNode (ls : List Linking) :
    (ls.map moduleNode).mapM Outline.ofValue = .ok (ls.map moduleOutline) := by
  induction ls with
  | nil => rfl
  | cons l ls ih =>
    have hnode : Outline.ofValue (moduleNode l) = .ok (moduleOutline l) := ofValue_leaf rfl rfl rfl
    rw [List.map_cons, List.mapM_cons, hnode, ih]
    rfl

theorem ofValue_fileOfModules (ls : List Linking) :
    ∃ told, ofValue (fileOfModules ls) = ⟨told, .ok (ofOutlines "p" (ls.map moduleOutline))⟩ := by
  refine ofValue_eq_ok_iff.mpr ⟨"p", ls.map moduleOutline, rfl, ?_, ?_, rfl⟩
  · exact (@topLevel_eq (fileOfModules ls) (ls.map moduleNode) rfl).trans (mapM_moduleNode ls)
  · intro node hnode
    rw [innerFirstAll_eq_flatMap, List.flatMap_map] at hnode
    obtain ⟨l, -, hnode⟩ := List.mem_flatMap.mp hnode
    rw [List.mem_singleton.mp hnode]
    rfl

end Model

end RefCheck
