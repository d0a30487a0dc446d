import Mathlib.Data.List.Nodup
import RefCheck.Model.Basic

/-!
# Models that are trees

A model can be put together in any way, so owning may lead round in a circle and a reflection may have
two owners. In a *tree* it does neither: the walk comes to an end, comes to each reflection once, and what
a reflection owns knows it as its owner.

## Going up and going down

Going up follows the links from a reflection to its owner; going down follows the lists of what an owner
has. The two are kept apart in a model, and nothing in its type makes them agree. In a tree they do:
`IsTree.enclosing_eq_holders` says that the way up from a reflection passes exactly those reflections in
whose walk it stands, from the inside out. Everything that is found by going up can so be read as found by
scanning the walk.
-/

namespace RefCheck.Model

variable {m : Model}

/-! ## Ways down -/

/-- A way down of some number of levels, each from an owner to one that it owns. -/
inductive Leads (m : Model) : Nat → Handle → Handle → Prop
  | here (h : Handle) : Leads m 0 h h
  | down {n : Nat} {h k l : Handle} (hk : k ∈ m.owned h) (hl : Leads m n k l) : Leads m (n + 1) h l

theorem Leads.trans {a b : Nat} {h k l : Handle} (hk : m.Leads a h k) (hl : m.Leads b k l) :
    m.Leads (a + b) h l := by
  induction hk with
  | here h => rwa [Nat.zero_add]
  | @down n h k' k hk' _ ih =>
    rw [Nat.add_right_comm]
    exact .down hk' (ih hl)

theorem Leads.owned {n : Nat} {h k l : Handle} (hk : m.Leads n h k) (hl : l ∈ m.owned k) :
    m.Leads (n + 1) h l := hk.trans (.down hl (.here l))

/-- The first levels of a way down are a way down. -/
theorem Leads.split {a b : Nat} {h l : Handle} (hl : m.Leads (a + b) h l) :
    ∃ k, m.Leads a h k ∧ m.Leads b k l := by
  induction a generalizing h with
  | zero => exact ⟨h, .here h, by rwa [Nat.zero_add] at hl⟩
  | succ a ih =>
    rw [Nat.add_right_comm] at hl
    cases hl with
    | down hk hl =>
      obtain ⟨k', hk', hl'⟩ := ih hl
      exact ⟨k', .down hk hk', hl'⟩

theorem mem_walkTo_iff {n : Nat} {h k : Handle} : k ∈ m.walkTo n h ↔ ∃ d < n, m.Leads d h k := by
  induction n generalizing h with
  | zero => simp [walkTo]
  | succ n ih =>
    rw [walkTo, List.mem_cons, List.mem_flatMap]
    constructor
    · rintro (rfl | ⟨l, hl, hk⟩)
      · exact ⟨0, Nat.succ_pos n, .here k⟩
      · obtain ⟨d, hd, hk⟩ := ih.mp hk
        exact ⟨d + 1, Nat.succ_lt_succ hd, .down hl hk⟩
    · rintro ⟨d, hd, hk⟩
      cases hk with
      | here => exact .inl rfl
      | @down d _ l _ hl hk => exact .inr ⟨l, hl, ih.mpr ⟨d, by omega, hk⟩⟩

/-- What is walked from the end of a way down is a part of what is walked from its start. -/
theorem Leads.walkTo_sublist {n d : Nat} {h k : Handle} (hk : m.Leads d h k) :
    (m.walkTo n k).Sublist (m.walkTo (n + d) h) := by
  induction hk with
  | here h => exact List.Sublist.refl _
  | @down d h l k hl _ ih =>
    rw [← Nat.add_assoc, walkTo]
    refine (ih.trans ?_).trans (List.sublist_cons_self h _)
    exact List.sublist_flatten_of_mem (List.mem_map_of_mem hl)

theorem mem_repeat_levelBelow {n : Nat} {hs : List Handle} {k : Handle} :
    k ∈ Nat.repeat m.levelBelow n hs ↔ ∃ h ∈ hs, m.Leads n h k := by
  induction n generalizing k with
  | zero =>
    constructor
    · exact fun hk ↦ ⟨k, hk, .here k⟩
    · rintro ⟨h, hh, hk⟩
      cases hk
      exact hh
  | succ n ih =>
    rw [Nat.repeat, levelBelow, List.mem_eraseDups, List.mem_flatMap]
    constructor
    · rintro ⟨l, hl, hk⟩
      obtain ⟨h, hh, hl⟩ := ih.mp hl
      exact ⟨h, hh, hl.owned hk⟩
    · rintro ⟨h, hh, hk⟩
      obtain ⟨l, hl, hk⟩ := hk.split
      cases hk with
      | down hk hk' =>
        cases hk'
        exact ⟨l, ih.mpr ⟨h, hh, hl⟩, hk⟩

/-- Below some reflections there is an end when no way down from them is as long as there are
reflections. -/
theorem isEndless_eq_false_iff {hs : List Handle} :
    m.isEndless hs = false ↔ ∀ h ∈ hs, ∀ k, ¬m.Leads m.size h k := by
  rw [isEndless, Bool.not_eq_false', List.isEmpty_iff, List.eq_nil_iff_forall_not_mem]
  constructor
  · exact fun hnil h hh k hk ↦ hnil k (mem_repeat_levelBelow.mpr ⟨h, hh, hk⟩)
  · intro hno k hk
    obtain ⟨h, hh, hk⟩ := mem_repeat_levelBelow.mp hk
    exact hno h hh k hk

/-! ## Ways down that end -/

theorem lt_size_of_leads (hfinite : m.isEndless m.roots = false) {n : Nat} {r h : Handle}
    (hr : r ∈ m.roots) (hh : m.Leads n r h) : n < m.size := by
  by_contra hle
  rw [Nat.not_lt] at hle
  rw [← Nat.add_sub_cancel' hle] at hh
  -- the first levels of a way that is too long would be one without end
  obtain ⟨k, hk, -⟩ := hh.split
  exact isEndless_eq_false_iff.mp hfinite r hr k hk

theorem mem_walk_iff_of_finite (hfinite : m.isEndless m.roots = false) {h : Handle} :
    h ∈ m.walk ↔ ∃ r ∈ m.roots, ∃ n, m.Leads n r h := by
  simp only [walk, walkFrom, List.mem_flatMap, mem_walkTo_iff]
  constructor
  · rintro ⟨r, hr, n, -, hh⟩
    exact ⟨r, hr, n, hh⟩
  · rintro ⟨r, hr, n, hh⟩
    exact ⟨r, hr, n, lt_size_of_leads hfinite hr hh, hh⟩

/-- Where every way down ends, the walk comes to all that it comes to the owner of. -/
theorem mem_walk_of_owned_of_finite (hfinite : m.isEndless m.roots = false) {h k : Handle}
    (hh : h ∈ m.walk) (hk : k ∈ m.owned h) : k ∈ m.walk := by
  obtain ⟨r, hr, n, hn⟩ := (mem_walk_iff_of_finite hfinite).mp hh
  exact (mem_walk_iff_of_finite hfinite).mpr ⟨r, hr, n + 1, hn.owned hk⟩

/-! ## Trees -/

/-- Owning makes a tree of the reflections of the project; bases and inherited members may point
anywhere. -/
structure IsTree (m : Model) : Prop where
  /-- Every way down comes to an end. -/
  finite : m.isEndless m.roots = false
  /-- The walk comes to each reflection once. -/
  nodup_walk : m.walk.Nodup
  /-- What stands at the top level has no owner. -/
  parent_root : ∀ h ∈ m.roots, (m.get h).parent = none
  /-- What a reflection owns knows it as its owner. -/
  parent_owned : ∀ h ∈ m.walk, ∀ k ∈ m.owned h, (m.get k).parent = some h

/-- The reflections in whose walk a reflection stands, from the inside out: itself, what owns it, and so
on up to the top level. They are found by going through the walk of the project. -/
def holders (m : Model) (h : Handle) : List Handle :=
  (m.walk.filter fun k ↦ (m.walkFrom k).contains h).reverse

namespace IsTree

theorem lt_size (hm : m.IsTree) {n : Nat} {r h : Handle} (hr : r ∈ m.roots) (hh : m.Leads n r h) :
    n < m.size := lt_size_of_leads hm.finite hr hh

theorem mem_walk_iff (hm : m.IsTree) {h : Handle} :
    h ∈ m.walk ↔ ∃ r ∈ m.roots, ∃ n, m.Leads n r h := mem_walk_iff_of_finite hm.finite

theorem mem_walk_of_owned (hm : m.IsTree) {h k : Handle} (hh : h ∈ m.walk) (hk : k ∈ m.owned h) :
    k ∈ m.walk := mem_walk_of_owned_of_finite hm.finite hh hk

theorem mem_walkFrom_iff (hm : m.IsTree) {h k : Handle} (hk : k ∈ m.walk) :
    h ∈ m.walkFrom k ↔ ∃ n, m.Leads n k h := by
  rw [walkFrom, mem_walkTo_iff]
  constructor
  · rintro ⟨n, -, hh⟩
    exact ⟨n, hh⟩
  · rintro ⟨n, hh⟩
    obtain ⟨r, hr, d, hd⟩ := hm.mem_walk_iff.mp hk
    have hlt : d + n < m.size := hm.lt_size hr (hd.trans hh)
    exact ⟨n, by omega, hh⟩

private theorem sublist_flatMap_walkTo (n : Nat) (hs : List Handle) :
    hs.Sublist (hs.flatMap (m.walkTo (n + 1))) := by
  induction hs with
  | nil => exact List.Sublist.refl []
  | cons h hs ih =>
    rw [List.flatMap_cons, walkTo, List.cons_append, List.cons_sublist_cons]
    exact ih.trans (List.sublist_append_right _ _)

/-- Nothing is owned twice by the same reflection. -/
theorem nodup_owned (hm : m.IsTree) {h : Handle} (hh : h ∈ m.walk) : (m.owned h).Nodup := by
  cases howned : m.owned h with
  | nil => exact List.nodup_nil
  | cons k rest =>
    obtain ⟨r, hr, d, hd⟩ := hm.mem_walk_iff.mp hh
    have hlt : d + 1 < m.size :=
      hm.lt_size hr (hd.owned (by rw [howned]; exact List.mem_cons_self))
    obtain ⟨n, hn⟩ : ∃ n, n + 1 + 1 + d = m.size := ⟨m.size - d - 2, by omega⟩
    have hbelow : (m.owned h).Sublist (m.walkTo (n + 1 + 1) h) :=
      (sublist_flatMap_walkTo n _).trans (List.sublist_cons_self h _)
    have hwalk : (m.walkTo (n + 1 + 1 + d) r).Sublist m.walk := by
      rw [hn]
      exact List.sublist_flatten_of_mem (List.mem_map_of_mem hr)
    rw [← howned]
    exact hm.nodup_walk.sublist ((hbelow.trans hd.walkTo_sublist).trans hwalk)

/-! ### The way up retraces the way down -/

/-- Of a list without repetition, a test that holds on a sublist only keeps just that. -/
private theorem filter_eq_of_sublist {p l : List Handle} {test : Handle → Bool} (hp : p.Sublist l)
    (hl : l.Nodup) (htest : ∀ h ∈ l, test h = true ↔ h ∈ p) : l.filter test = p := by
  have hkeep : p.filter test = p :=
    List.filter_eq_self.mpr fun h hh ↦ (htest h (hp.subset hh)).mpr hh
  have hsub : p.Sublist (l.filter test) := hkeep ▸ hp.filter test
  have hperm : p.Perm (l.filter test) := by
    rw [List.perm_ext_iff_of_nodup (hl.sublist hp) (hl.filter test)]
    intro h
    rw [List.mem_filter]
    exact ⟨fun hh ↦ ⟨hp.subset hh, (htest h (hp.subset hh)).mpr hh⟩,
      fun hh ↦ (htest h hh.1).mp hh.2⟩
  exact (hsub.eq_of_length hperm.length_eq).symm

/-- The way down from a reflection of the project to another, read backwards, is how the way up from the
other starts; and in the walk the reflections on it follow one another in this order. -/
private theorem exists_path (hm : m.IsTree) {n : Nat} {h k : Handle} (hh : h ∈ m.walk)
    (hk : m.Leads n h k) :
    ∃ p : List Handle, p.length = n + 1 ∧ h ∈ p ∧ (∀ l ∈ p, ∃ d, m.Leads d l k) ∧
      (∀ levels, n < levels → p.Sublist (m.walkTo levels h)) ∧
      ∀ rest, m.enclosingTo (n + 1 + rest) k = p.reverse ++
        match (m.get h).parent with
        | some o => m.enclosingTo rest o
        | none => [] := by
  -- on the way down; the way up to its first reflection goes on behind the reversed path
  induction hk with
  | here h =>
    refine ⟨[h], rfl, List.mem_singleton_self h, ?_, ?_, ?_⟩
    · intro l hl
      rw [List.mem_singleton.mp hl]
      exact ⟨0, .here h⟩
    · intro levels hlevels
      obtain ⟨levels, rfl⟩ := Nat.exists_eq_succ_of_ne_zero (Nat.ne_of_gt hlevels)
      rw [walkTo, List.singleton_sublist]
      exact List.mem_cons_self
    · intro rest
      rw [Nat.zero_add, Nat.add_comm, enclosingTo]
      rfl
  | @down n h l k hl hk ih =>
    obtain ⟨p, hlen, -, hreach, hsub, hup⟩ := ih (hm.mem_walk_of_owned hh hl)
    refine ⟨h :: p, by rw [List.length_cons, hlen], List.mem_cons_self, ?_, ?_, ?_⟩
    · intro a ha
      rcases List.mem_cons.mp ha with rfl | ha
      · exact ⟨n + 1, .down hl hk⟩
      · exact hreach a ha
    · intro levels hlevels
      obtain ⟨levels, rfl⟩ :=
        Nat.exists_eq_succ_of_ne_zero (Nat.ne_of_gt (Nat.zero_lt_of_lt hlevels))
      rw [walkTo, List.cons_sublist_cons]
      exact (hsub levels (by omega)).trans (List.sublist_flatten_of_mem (List.mem_map_of_mem hl))
    · intro rest
      have hstep := hup (rest + 1)
      rw [hm.parent_owned h hh l hl] at hstep
      rw [show n + 1 + 1 + rest = n + 1 + (rest + 1) from by omega, hstep, List.reverse_cons,
        List.append_assoc, List.singleton_append]
      rfl

/-- The way up from a reflection of the project, read backwards, is a way down from the top level. -/
private theorem exists_path_to (hm : m.IsTree) {k : Handle} (hk : k ∈ m.walk) :
    ∃ p : List Handle, m.enclosing k = p.reverse ∧ p.length ≤ m.size ∧ p.Sublist m.walk ∧
      ∀ l ∈ p, ∃ d, m.Leads d l k := by
  obtain ⟨r, hr, n, hn⟩ := hm.mem_walk_iff.mp hk
  have hlt : n < m.size := hm.lt_size hr hn
  have hrw : r ∈ m.walk := hm.mem_walk_iff.mpr ⟨r, hr, 0, .here r⟩
  obtain ⟨p, hlen, -, hreach, hsub, hup⟩ := hm.exists_path hrw hn
  refine ⟨p, ?_, by omega, ?_, hreach⟩
  · have hall := hup (m.size - n)
    rw [hm.parent_root r hr, List.append_nil] at hall
    rw [enclosing, ← hall, show n + 1 + (m.size - n) = m.size + 1 from by omega]
  · exact (hsub m.size hlt).trans (List.sublist_flatten_of_mem (List.mem_map_of_mem hr))

/-- Every reflection from which a way leads down is passed on the way up. -/
private theorem mem_enclosing_of_leads (hm : m.IsTree) {n : Nat} {h k : Handle} (hh : h ∈ m.walk)
    (hk : m.Leads n h k) : h ∈ m.enclosing k := by
  obtain ⟨r, hr, d, hd⟩ := hm.mem_walk_iff.mp hh
  have hlt : d + n < m.size := hm.lt_size hr (hd.trans hk)
  obtain ⟨p, -, hmem, -, -, hup⟩ := hm.exists_path hh hk
  rw [enclosing, show m.size + 1 = n + 1 + (m.size - n) from by omega, hup]
  exact List.mem_append_left _ (List.mem_reverse.mpr hmem)

theorem length_enclosing_le (hm : m.IsTree) {k : Handle} (hk : k ∈ m.walk) :
    (m.enclosing k).length ≤ m.size := by
  obtain ⟨p, hp, hlen, -⟩ := hm.exists_path_to hk
  rwa [hp, List.length_reverse]

theorem mem_walk_of_mem_enclosing (hm : m.IsTree) {h k : Handle} (hk : k ∈ m.walk)
    (hh : h ∈ m.enclosing k) : h ∈ m.walk := by
  obtain ⟨p, hp, -, hsub, -⟩ := hm.exists_path_to hk
  rw [hp, List.mem_reverse] at hh
  exact hsub.subset hh

/-- **Going up is scanning the walk.** From a reflection of a tree the way up passes the reflections in
whose walk it stands, from the inside out. -/
theorem enclosing_eq_holders (hm : m.IsTree) {k : Handle} (hk : k ∈ m.walk) :
    m.enclosing k = m.holders k := by
  obtain ⟨p, hp, -, hsub, hreach⟩ := hm.exists_path_to hk
  have hmem : ∀ h ∈ m.walk, (m.walkFrom h).contains k = true ↔ h ∈ p := by
    intro h hh
    rw [List.contains_iff_mem, hm.mem_walkFrom_iff hh]
    constructor
    · rintro ⟨n, hn⟩
      have hup := hm.mem_enclosing_of_leads hh hn
      rwa [hp, List.mem_reverse] at hup
    · exact hreach h
  rw [holders, hp, filter_eq_of_sublist hsub hm.nodup_walk hmem]

/-! ### Owners -/

/-- What does not stand at the top level is owned. -/
theorem exists_owner (hm : m.IsTree) {h : Handle} (hh : h ∈ m.walk) (hroot : h ∉ m.roots) :
    ∃ p ∈ m.walk, h ∈ m.owned p := by
  obtain ⟨r, hr, n, hn⟩ := hm.mem_walk_iff.mp hh
  cases n with
  | zero =>
    cases hn
    exact absurd hr hroot
  | succ n =>
    obtain ⟨p, hp, hlast⟩ := hn.split
    cases hlast with
    | down hk hl =>
      cases hl
      exact ⟨p, hm.mem_walk_iff.mpr ⟨r, hr, n, hp⟩, hk⟩

/-- Of the lists of its owner it stands in one, and there once. -/
theorem count_add_count_eq_one (hm : m.IsTree) {p h : Handle} (hp : p ∈ m.walk)
    (hh : h ∈ m.owned p) : (m.get p).signatures.count h + (m.get p).children.count h = 1 := by
  rw [← List.count_append]
  exact List.count_eq_one_of_mem (hm.nodup_owned hp) hh

/-- A way up that was not cut off ends at a reflection without owner. -/
private theorem exists_getLast?_enclosingTo {n : Nat} {h : Handle}
    (hlt : (m.enclosingTo n h).length < n) :
    ∃ k, (m.enclosingTo n h).getLast? = some k ∧ (m.get k).parent = none := by
  induction n generalizing h with
  | zero => exact absurd hlt (Nat.not_lt_zero _)
  | succ n ih =>
    rw [enclosingTo] at hlt ⊢
    cases hparent : (m.get h).parent with
    | none => exact ⟨h, rfl, hparent⟩
    | some p =>
      rw [hparent, List.length_cons] at hlt
      obtain ⟨k, hlast, hk⟩ := ih (Nat.lt_of_succ_lt_succ hlt)
      exact ⟨k, by rw [List.getLast?_cons, hlast, Option.getD_some], hk⟩

/-- **Every way up ends at the top level.** -/
theorem exists_root (hm : m.IsTree) {h : Handle} (hh : h ∈ m.walk) :
    ∃ r ∈ m.roots, (m.enclosing h).getLast? = some r := by
  obtain ⟨r, hlast, hr⟩ := exists_getLast?_enclosingTo (Nat.lt_succ_of_le (hm.length_enclosing_le hh))
  refine ⟨r, ?_, hlast⟩
  by_contra hroot
  have hwalk := hm.mem_walk_of_mem_enclosing hh (List.mem_of_getLast? hlast)
  obtain ⟨p, hp, howned⟩ := hm.exists_owner hwalk hroot
  rw [hm.parent_owned p hp r howned] at hr
  cases hr

end IsTree

end RefCheck.Model
