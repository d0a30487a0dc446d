import Mathlib.Data.List.Basic
import Mathlib.Data.Nat.Find
import RefCheck.Proofs.Index.Descent

/-!
# Nearest first

The line of descent in terms of distances. The *distance* of a reflection is the number of links on a
shortest way up to it, each link from a reflection to one of its bases; a handle outside the model is no
reflection, so no link leads there. `listsAncestors_descent` says what the line of descent is, whatever the
bases are: all that some way up leads to, each once, nearest first. Of two at one distance that one comes
first whose earliest parent is listed earlier, and if they share it then the one that it names earlier.

The levels of the search are these distances (`mem_levels_iff`). A reflection that the search has seen has a
shorter way up, and what a level takes from its bases has no shorter one than the level itself allows; so a
way back, or a second way of the same length, changes nothing.
-/

namespace RefCheck.Model

variable {m : Model} {h a b p : Handle} {n k : Nat}

/-! ## Ways up -/

/-- A way up of some number of links, each from a reflection to one of its bases. -/
inductive Descends (m : Model) (h : Handle) : Nat → Handle → Prop
  | here : Descends m h 0 h
  | up {n : Nat} {p a : Handle} (hp : Descends m h n p) (ha : a ∈ (m.get p).bases)
    (hsize : a < m.size) : Descends m h (n + 1) a

/-- The distance: a shortest way up has this number of links. -/
structure IsAway (m : Model) (h : Handle) (n : Nat) (a : Handle) : Prop where
  /-- There is a way up of this length. -/
  descends : m.Descends h n a
  /-- There is no shorter one. -/
  shortest : ∀ k, m.Descends h k a → n ≤ k

theorem Descends.exists_isAway (ha : m.Descends h n a) : ∃ k ≤ n, m.IsAway h k a := by
  classical
  have hex : ∃ k, m.Descends h k a := ⟨n, ha⟩
  exact ⟨Nat.find hex, Nat.find_min' hex ha, Nat.find_spec hex, fun k hk ↦ Nat.find_min' hex hk⟩

theorem IsAway.unique (ha : m.IsAway h n a) (ha' : m.IsAway h k a) : n = k :=
  Nat.le_antisymm (ha.shortest k ha'.descends) (ha'.shortest n ha.descends)

theorem isAway_zero_iff : m.IsAway h 0 a ↔ a = h := by
  constructor
  · intro ha
    cases ha.descends
    rfl
  · rintro rfl
    exact ⟨.here, fun k _ ↦ Nat.zero_le k⟩

/-- One link farther are the bases of what is at a distance, those apart that are not as far. -/
theorem isAway_succ_iff : m.IsAway h (n + 1) a ↔
    (∃ p, m.IsAway h n p ∧ a ∈ (m.get p).bases) ∧ a < m.size ∧ ∀ k ≤ n, ¬m.IsAway h k a := by
  constructor
  · intro ha
    have hfar : ∀ k ≤ n, ¬m.IsAway h k a := fun k hk hnear ↦
      Nat.not_succ_le_self n (Nat.le_trans (Nat.le_of_eq (ha.unique hnear)) hk)
    cases ha.descends with
    | @up _ p _ hp hbase hsize =>
      refine ⟨⟨p, ⟨hp, fun k hk ↦ ?_⟩, hbase⟩, hsize, hfar⟩
      -- a shorter way to the parent would give a shorter way to its base
      exact Nat.le_of_succ_le_succ (ha.shortest (k + 1) (hk.up hbase hsize))
  · rintro ⟨⟨p, hp, hbase⟩, hsize, hfar⟩
    refine ⟨hp.descends.up hbase hsize, fun k hk ↦ ?_⟩
    obtain ⟨d, hd, hnear⟩ := hk.exists_isAway
    by_contra hlt
    exact hfar d (by omega) hnear

/-! ## The order of a listing -/

/-- Of the reflections at a distance that name `a` as a base, the one that is listed first. -/
structure IsFirstParent (m : Model) (h : Handle) (listing : List Handle) (n : Nat) (a p : Handle) :
    Prop where
  /-- It is at the distance. -/
  away : m.IsAway h n p
  /-- It names `a` as a base. -/
  base : a ∈ (m.get p).bases
  /-- No other is listed earlier. -/
  first : ∀ q, m.IsAway h n q → a ∈ (m.get q).bases → listing.idxOf p ≤ listing.idxOf q

/-- The place of `a` before `b` in a listing that starts from `h`. -/
inductive ComesBefore (m : Model) (h : Handle) (listing : List Handle) (a b : Handle) : Prop
  /-- It is nearer. -/
  | nearer {n k : Nat} (ha : m.IsAway h n a) (hb : m.IsAway h k b) (hlt : n < k)
  /-- It is as near, and its first parent one link nearer is listed earlier. -/
  | parent {n : Nat} {p q : Handle} (ha : m.IsAway h (n + 1) a) (hb : m.IsAway h (n + 1) b)
    (hp : m.IsFirstParent h listing n a p) (hq : m.IsFirstParent h listing n b q)
    (hlt : listing.idxOf p < listing.idxOf q)
  /-- It is as near, and the first parent, which both share, names it earlier. -/
  | position {n : Nat} {p : Handle} (ha : m.IsAway h (n + 1) a) (hb : m.IsAway h (n + 1) b)
    (hp : m.IsFirstParent h listing n a p) (hq : m.IsFirstParent h listing n b p)
    (hlt : (m.get p).bases.idxOf a < (m.get p).bases.idxOf b)

/-- A nearer reflection comes first, so what comes first is not farther away. -/
theorem ComesBefore.le {listing : List Handle} (hab : m.ComesBefore h listing a b)
    (ha : m.IsAway h n a) (hb : m.IsAway h k b) : n ≤ k := by
  cases hab with
  | nearer ha' hb' hlt => exact ha.unique ha' ▸ hb.unique hb' ▸ Nat.le_of_lt hlt
  | parent ha' hb' => exact ha.unique ha' ▸ hb.unique hb' ▸ Nat.le_refl _
  | position ha' hb' => exact ha.unique ha' ▸ hb.unique hb' ▸ Nat.le_refl _

/-- The list holds what a reflection descends from, in the order in which a search by levels finds it. -/
structure ListsAncestors (m : Model) (h : Handle) (found : List Handle) : Prop where
  /-- It holds what one or more links lead to, other than the reflection itself. -/
  mem_iff : ∀ a, a ∈ found ↔ a ≠ h ∧ ∃ n, m.Descends h (n + 1) a
  /-- It holds each once. -/
  nodup : found.Nodup
  /-- It has the nearest first, and those at one distance in the order of their parents. -/
  ordered : found.Pairwise (m.ComesBefore h (h :: found))

/-! ## Levels -/

/-- What a search has seen after some number of levels, and the last of these levels. -/
def levels (m : Model) (h : Handle) : Nat → List Handle × List Handle
  | 0 => ([h], [h])
  | n + 1 =>
    ((m.levels h n).1 ++ m.newBases (m.levels h n).1 (m.levels h n).2,
      m.newBases (m.levels h n).1 (m.levels h n).2)

theorem mem_newBases_iff {seen level : List Handle} : a ∈ m.newBases seen level ↔
    (∃ p ∈ level, a ∈ (m.get p).bases) ∧ a < m.size ∧ a ∉ seen := by
  rw [newBases, List.mem_eraseDups, List.mem_filter, List.mem_flatMap]
  simp

/-- **The levels of a search are the distances.** -/
theorem mem_levels_iff (m : Model) (h : Handle) (n : Nat) :
    (∀ a, a ∈ (m.levels h n).1 ↔ ∃ k ≤ n, m.IsAway h k a) ∧
      ∀ a, a ∈ (m.levels h n).2 ↔ m.IsAway h n a := by
  induction n with
  | zero =>
    have hstart : ∀ a, a ∈ [h] ↔ m.IsAway h 0 a := fun a ↦
      List.mem_singleton.trans isAway_zero_iff.symm
    exact ⟨fun a ↦ (hstart a).trans ⟨fun ha ↦ ⟨0, Nat.le_refl 0, ha⟩,
      fun ⟨k, hk, ha⟩ ↦ Nat.le_zero.mp hk ▸ ha⟩, hstart⟩
  | succ n ih =>
    obtain ⟨hseen, hlevel⟩ := ih
    have hnext : ∀ a, a ∈ (m.levels h (n + 1)).2 ↔ m.IsAway h (n + 1) a := by
      intro a
      rw [levels, mem_newBases_iff, isAway_succ_iff]
      simp only [hseen, hlevel, not_exists, not_and]
    refine ⟨fun a ↦ ?_, hnext⟩
    rw [levels, List.mem_append, hseen]
    constructor
    · rintro (⟨k, hk, ha⟩ | ha)
      · exact ⟨k, Nat.le_succ_of_le hk, ha⟩
      · exact ⟨n + 1, Nat.le_refl _, (hnext a).mp ha⟩
    · rintro ⟨k, hk, ha⟩
      rcases Nat.le_succ_iff.mp hk with hk | rfl
      · exact .inl ⟨k, hk, ha⟩
      · exact .inr ((hnext a).mpr ha)

theorem mem_seen_iff : a ∈ (m.levels h n).1 ↔ ∃ k ≤ n, m.IsAway h k a := (mem_levels_iff m h n).1 a

theorem mem_level_iff : a ∈ (m.levels h n).2 ↔ m.IsAway h n a := (mem_levels_iff m h n).2 a

/-- Further levels only add to what was seen. -/
theorem descentTo_append (k : Nat) : (m.levels h n).1 ++ m.descentTo k (m.levels h n).1 (m.levels h n).2
    = (m.levels h (n + k)).1 := by
  induction k generalizing n with
  | zero => exact List.append_nil _
  | succ k ih =>
    rw [descentTo, ← List.append_assoc, Nat.add_comm k, ← Nat.add_assoc]
    exact ih (n := n + 1)

/-- From as many levels as there are reflections on, the line of descent is what was seen. -/
theorem cons_descent (h : Handle) (hn : m.size ≤ n) : h :: m.descent h = (m.levels h n).1 := by
  have hlevels := descentTo_append (m := m) (h := h) (n := 0) n
  rw [Nat.zero_add] at hlevels
  rw [← hlevels, ← Index.ancestorsOf_eq_descent, ← Index.descentTo_eq_ancestorsOf h hn]
  rfl

/-! ## The order within a level -/

/-- Without repetitions, what is left of a list keeps the order in which it first occurs there. -/
theorem pairwise_eraseDups_filter (items : List Handle) (keep : Handle → Bool) :
    (items.filter keep).eraseDups.Pairwise fun a b ↦ items.idxOf a < items.idxOf b := by
  induction items generalizing keep with
  | nil => exact List.Pairwise.nil
  | cons c items ih =>
    -- behind the first item all places move up by one
    have hmove : ∀ keep' : Handle → Bool, (∀ a, keep' a = true → a ≠ c) →
        (items.filter keep').eraseDups.Pairwise
          fun a b ↦ (c :: items).idxOf a < (c :: items).idxOf b := by
      intro keep' hne
      have hkept : ∀ a ∈ (items.filter keep').eraseDups, a ≠ c := fun a ha ↦
        hne a (List.mem_filter.mp (List.mem_eraseDups.mp ha)).2
      refine (ih keep').imp_of_mem fun {a b} ha hb hlt ↦ ?_
      rw [List.idxOf_cons_ne items (hkept a ha).symm, List.idxOf_cons_ne items (hkept b hb).symm]
      exact Nat.succ_lt_succ hlt
    by_cases hc : keep c = true
    · rw [List.filter_cons_of_pos hc, List.eraseDups_cons, List.filter_filter, List.pairwise_cons]
      refine ⟨fun a ha ↦ ?_, hmove _ fun a ha ↦ by simpa using (Bool.and_eq_true_iff.mp ha).1⟩
      have hne : a ≠ c := by
        have hkeep := (List.mem_filter.mp (List.mem_eraseDups.mp ha)).2
        simpa using (Bool.and_eq_true_iff.mp hkeep).1
      rw [List.idxOf_cons_self, List.idxOf_cons_ne items hne.symm]
      exact Nat.succ_pos _
    · rw [List.filter_cons_of_neg hc]
      exact hmove keep fun a ha hac ↦ hc (hac ▸ ha)

/-- A new level is in the order in which the level before it names its bases. -/
theorem pairwise_newBases (seen level : List Handle) : (m.newBases seen level).Pairwise fun a b ↦
    (level.flatMap fun q ↦ (m.get q).bases).idxOf a
      < (level.flatMap fun q ↦ (m.get q).bases).idxOf b := pairwise_eraseDups_filter _ _

/-- What some lists hold together is first held by one of them. -/
theorem exists_first_of_mem_flatMap {level : List Handle} {bases : Handle → List Handle}
    (ha : a ∈ level.flatMap bases) : ∃ p ∈ level, a ∈ bases p ∧
      ∀ q, a ∈ bases q → level.idxOf p ≤ level.idxOf q := by
  induction level with
  | nil => cases ha
  | cons c level ih =>
    by_cases hc : a ∈ bases c
    · refine ⟨c, List.mem_cons_self, hc, fun q _ ↦ ?_⟩
      rw [List.idxOf_cons_self]
      exact Nat.zero_le _
    · rw [List.flatMap_cons, List.mem_append] at ha
      obtain ⟨p, hp, hbase, hfirst⟩ := ih (ha.resolve_left hc)
      refine ⟨p, List.mem_cons_of_mem c hp, hbase, fun q hq ↦ ?_⟩
      have hne : ∀ q, a ∈ bases q → c ≠ q := by
        rintro q hq rfl
        exact hc hq
      rw [List.idxOf_cons_ne level (hne p hbase), List.idxOf_cons_ne level (hne q hq)]
      exact Nat.succ_le_succ (hfirst q hq)

/-- Of two that some lists hold together, that one comes first which an earlier list holds first, or which
comes first in the list that holds both first. -/
theorem first_lt_of_idxOf_flatMap_lt {level : List Handle} {bases : Handle → List Handle}
    {q : Handle} (hlt : (level.flatMap bases).idxOf a < (level.flatMap bases).idxOf b)
    (hp : p ∈ level) (hpa : a ∈ bases p) (hpfirst : ∀ r, a ∈ bases r → level.idxOf p ≤ level.idxOf r)
    (hq : q ∈ level) (hqb : b ∈ bases q) (hqfirst : ∀ r, b ∈ bases r → level.idxOf q ≤ level.idxOf r) :
    level.idxOf p < level.idxOf q ∨ p = q ∧ (bases p).idxOf a < (bases p).idxOf b := by
  induction level with
  | nil => cases hp
  | cons c level ih =>
    -- a first holder is the first list of all if that list holds it at all
    have hhead : ∀ {r : Handle}, (c :: level).idxOf r ≤ (c :: level).idxOf c → r = c := by
      intro r hr
      by_contra hne
      rw [List.idxOf_cons_self, List.idxOf_cons_ne level (Ne.symm hne)] at hr
      exact Nat.not_succ_le_zero _ hr
    rw [List.flatMap_cons] at hlt
    by_cases hca : a ∈ bases c
    · obtain rfl := hhead (hpfirst c hca)
      rw [List.idxOf_append_of_mem hca] at hlt
      by_cases hcb : b ∈ bases p
      · obtain rfl := hhead (hqfirst p hcb)
        rw [List.idxOf_append_of_mem hcb] at hlt
        exact .inr ⟨rfl, hlt⟩
      · have hne : p ≠ q := by
          rintro rfl
          exact hcb hqb
        rw [List.idxOf_cons_self, List.idxOf_cons_ne level hne]
        exact .inl (Nat.succ_pos _)
    · rw [List.idxOf_append_of_notMem hca] at hlt
      have hcb : b ∉ bases c := by
        intro hcb
        have hshort := List.idxOf_lt_length_iff.mpr hcb
        rw [List.idxOf_append_of_mem hcb] at hlt
        omega
      rw [List.idxOf_append_of_notMem hcb, Nat.add_lt_add_iff_left] at hlt
      have hnea : ∀ r, a ∈ bases r → c ≠ r := by
        rintro r hr rfl
        exact hca hr
      have hneb : ∀ r, b ∈ bases r → c ≠ r := by
        rintro r hr rfl
        exact hcb hr
      have hp' : p ∈ level := (List.mem_cons.mp hp).resolve_left (hnea p hpa).symm
      have hq' : q ∈ level := (List.mem_cons.mp hq).resolve_left (hneb q hqb).symm
      rw [List.idxOf_cons_ne level (hnea p hpa), List.idxOf_cons_ne level (hneb q hqb),
        Nat.succ_lt_succ_iff]
      refine ih hlt hp' (fun r hr ↦ ?_) hq' fun r hr ↦ ?_
      · have hle := hpfirst r hr
        rw [List.idxOf_cons_ne level (hnea p hpa), List.idxOf_cons_ne level (hnea r hr)] at hle
        exact Nat.le_of_succ_le_succ hle
      · have hle := hqfirst r hr
        rw [List.idxOf_cons_ne level (hneb q hqb), List.idxOf_cons_ne level (hneb r hr)] at hle
        exact Nat.le_of_succ_le_succ hle

/-! ## The whole listing -/

/-- What was seen ends with the last level. -/
theorem exists_seen_eq (m : Model) (h : Handle) (n : Nat) :
    ∃ before, (m.levels h n).1 = before ++ (m.levels h n).2 := by
  cases n with
  | zero => exact ⟨[], rfl⟩
  | succ n => exact ⟨(m.levels h n).1, rfl⟩

theorem nodup_seen (m : Model) (h : Handle) (n : Nat) : (m.levels h n).1.Nodup := by
  induction n with
  | zero => exact List.nodup_singleton h
  | succ n ih =>
    have hnew : (m.newBases (m.levels h n).1 (m.levels h n).2).Nodup := by
      refine (pairwise_newBases _ _).imp fun hlt heq ↦ ?_
      rw [heq] at hlt
      exact Nat.lt_irrefl _ hlt
    exact ih.append hnew fun a ha hnew ↦ (mem_newBases_iff.mp hnew).2.2 ha

/-- Within a level the places in the listing are the places in the level, moved by what comes before. -/
theorem idxOf_listing_le_iff {listing : List Handle} (hlisting : (m.levels h n).1 <+: listing)
    {q : Handle} (hp : m.IsAway h n p) (hq : m.IsAway h n q) :
    listing.idxOf p ≤ listing.idxOf q ↔ (m.levels h n).2.idxOf p ≤ (m.levels h n).2.idxOf q := by
  obtain ⟨before, hseen⟩ := exists_seen_eq m h n
  have hnodup := nodup_seen m h n
  have hplace : ∀ r, m.IsAway h n r →
      listing.idxOf r = before.length + (m.levels h n).2.idxOf r := by
    intro r hr
    have hlevel : r ∈ (m.levels h n).2 := mem_level_iff.mpr hr
    have hmem : r ∈ (m.levels h n).1 := by
      rw [hseen]
      exact List.mem_append_right before hlevel
    rw [hseen] at hnodup
    have hbefore : r ∉ before := fun hr ↦ (List.nodup_append'.mp hnodup).2.2 hr hlevel
    rw [← hlisting.idxOf_eq_of_mem hmem, hseen, List.idxOf_append_of_notMem hbefore]
  rw [hplace p hp, hplace q hq, Nat.add_le_add_iff_left]

/-- The first of a level to name a base is its first parent. -/
theorem exists_isFirstParent {listing : List Handle} (hlisting : (m.levels h n).1 <+: listing)
    (ha : m.IsAway h (n + 1) a) : ∃ p ∈ (m.levels h n).2, m.IsFirstParent h listing n a p ∧
      ∀ q, a ∈ (m.get q).bases → (m.levels h n).2.idxOf p ≤ (m.levels h n).2.idxOf q := by
  obtain ⟨⟨p, hp, hbase⟩, -, -⟩ := isAway_succ_iff.mp ha
  have hmem : a ∈ (m.levels h n).2.flatMap fun q ↦ (m.get q).bases :=
    List.mem_flatMap.mpr ⟨p, mem_level_iff.mpr hp, hbase⟩
  obtain ⟨first, hfirst, hbase, hle⟩ := exists_first_of_mem_flatMap hmem
  have haway := mem_level_iff.mp hfirst
  exact ⟨first, hfirst, ⟨haway, hbase, fun q hq hbase' ↦
    (idxOf_listing_le_iff hlisting haway hq).mpr (hle q hbase')⟩, hle⟩

/-- **A level is in the order of its parents.** -/
theorem pairwise_level {listing : List Handle} (hlisting : (m.levels h n).1 <+: listing) :
    (m.levels h (n + 1)).2.Pairwise (m.ComesBefore h listing) := by
  refine List.Pairwise.imp_of_mem (fun {a b} ha hb hlt ↦ ?_)
    (pairwise_newBases (m.levels h n).1 (m.levels h n).2)
  have haway : m.IsAway h (n + 1) a := mem_level_iff.mp ha
  have hbway : m.IsAway h (n + 1) b := mem_level_iff.mp hb
  obtain ⟨p, hp, hpa, hpfirst⟩ := exists_isFirstParent hlisting haway
  obtain ⟨q, hq, hqb, hqfirst⟩ := exists_isFirstParent hlisting hbway
  rcases first_lt_of_idxOf_flatMap_lt hlt hp hpa.base hpfirst hq hqb.base hqfirst with hlt | ⟨rfl, hlt⟩
  · refine .parent haway hbway hpa hqb ?_
    rw [← Nat.not_le, idxOf_listing_le_iff hlisting hqb.away hpa.away, Nat.not_le]
    exact hlt
  · exact .position haway hbway hpa hqb hlt

/-- What was seen is in order, level after level. -/
theorem pairwise_seen {listing : List Handle} (hlisting : (m.levels h n).1 <+: listing) :
    (m.levels h n).1.Pairwise (m.ComesBefore h listing) := by
  induction n with
  | zero => exact List.pairwise_singleton _ h
  | succ n ih =>
    have hbefore : (m.levels h n).1 <+: listing := (List.prefix_append _ _).trans hlisting
    rw [levels, List.pairwise_append]
    refine ⟨ih hbefore, pairwise_level hbefore, fun a ha b hb ↦ ?_⟩
    obtain ⟨k, hk, hka⟩ := mem_seen_iff.mp ha
    have hbaway : m.IsAway h (n + 1) b := mem_level_iff.mp hb
    exact .nearer hka hbaway (Nat.lt_succ_of_le hk)

/-- **The line of descent lists what a reflection descends from, nearest first**, whatever the bases are. -/
theorem listsAncestors_descent (m : Model) (h : Handle) : m.ListsAncestors h (m.descent h) := by
  have hlisting := cons_descent h (Nat.le_refl m.size)
  have hnodup := nodup_seen m h m.size
  have hordered := pairwise_seen (List.prefix_refl (m.levels h m.size).1)
  rw [← hlisting] at hnodup hordered
  obtain ⟨hself, hnodup⟩ := List.nodup_cons.mp hnodup
  refine ⟨fun a ↦ ⟨fun ha ↦ ?_, ?_⟩, hnodup, (List.pairwise_cons.mp hordered).2⟩
  · have hne : a ≠ h := by
      rintro rfl
      exact hself ha
    have hseen : a ∈ (m.levels h m.size).1 := hlisting ▸ List.mem_cons_of_mem h ha
    obtain ⟨k, -, hk⟩ := mem_seen_iff.mp hseen
    cases k with
    | zero => exact absurd (isAway_zero_iff.mp hk) hne
    | succ k => exact ⟨hne, k, hk.descends⟩
  · rintro ⟨hne, n, ha⟩
    obtain ⟨k, -, hk⟩ := ha.exists_isAway
    -- enough levels to come as far as `a`
    have hseen : a ∈ (m.levels h (m.size + k)).1 :=
      mem_seen_iff.mpr ⟨k, Nat.le_add_left k m.size, hk⟩
    rw [← cons_descent h (Nat.le_add_right m.size k)] at hseen
    exact (List.mem_cons.mp hseen).resolve_left hne

end RefCheck.Model
