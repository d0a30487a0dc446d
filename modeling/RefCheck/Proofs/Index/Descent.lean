import Mathlib.Data.List.Nodup
import RefCheck.Index.Basic
import RefCheck.Proofs.Model.Scan

/-!
# The queue goes level by level

An index searches the types that a class descends from with one queue: what is taken from its front puts its
own bases at its end. The line of descent is made level by level instead. `ancestorsOf_eq_descent` says that
both give the same types in the same order, for bases that repeat, lead back or lead out of the model.

The step is `searchBases_append`. Taking a whole stretch from the front of the queue emits those of the
stretch that are new, each once, and leaves their bases, in this order, behind what else is in the queue. If
the stretch is all there is, what is left is the next level.
-/

namespace RefCheck.Index

variable {m : Model}

theorem searchBases_nil (unseen : List Handle) : searchBases m [] unseen = [] := by
  rw [searchBases]

theorem searchBases_cons_of_mem {b : Handle} {rest unseen : List Handle} (hb : b ∈ unseen) :
    searchBases m (b :: rest) unseen
      = b :: searchBases m (rest ++ (m.get b).bases) (unseen.erase b) := by
  rw [searchBases, if_pos hb]

theorem searchBases_cons_of_not_mem {b : Handle} {rest unseen : List Handle} (hb : b ∉ unseen) :
    searchBases m (b :: rest) unseen = searchBases m rest unseen := by
  rw [searchBases, if_neg hb]

/-- The reflections of a stretch of the queue that are still unseen, each once. -/
def fresh (stretch unseen : List Handle) : List Handle :=
  (stretch.filter fun b ↦ unseen.contains b).eraseDups

theorem mem_fresh {b : Handle} {stretch unseen : List Handle} :
    b ∈ fresh stretch unseen ↔ b ∈ stretch ∧ b ∈ unseen := by
  rw [fresh, List.mem_eraseDups, List.mem_filter, List.contains_iff_mem]

private theorem fresh_cons_of_mem {b : Handle} {stretch unseen : List Handle} (hb : b ∈ unseen)
    (hu : unseen.Nodup) :
    fresh (b :: stretch) unseen = b :: fresh stretch (unseen.erase b) := by
  have hkeep : ∀ c : Handle, (!(c == b) && unseen.contains c) = (unseen.erase b).contains c := by
    intro c
    rw [Bool.eq_iff_iff, List.contains_iff_mem, hu.mem_erase_iff]
    simp
  rw [fresh, List.filter_cons_of_pos (List.contains_iff_mem.mpr hb), List.eraseDups_cons,
    List.filter_filter, fresh]
  simp only [hkeep]

private theorem fresh_cons_of_not_mem {b : Handle} {stretch unseen : List Handle}
    (hb : b ∉ unseen) : fresh (b :: stretch) unseen = fresh stretch unseen := by
  rw [fresh, List.filter_cons_of_neg (by simpa using hb), fresh]

/-- **One stretch of the queue.** What is new in it comes out, and its bases wait at the end. -/
theorem searchBases_append (stretch queue : List Handle) {unseen : List Handle}
    (hu : unseen.Nodup) :
    searchBases m (stretch ++ queue) unseen
      = fresh stretch unseen ++ searchBases m
          (queue ++ (fresh stretch unseen).flatMap fun h ↦ (m.get h).bases)
          (unseen.filter fun b ↦ !(fresh stretch unseen).contains b) := by
  -- each step moves the bases of its reflection behind the queue, so the queue has to be general
  induction stretch generalizing queue unseen with
  | nil => simp [fresh]
  | cons b stretch ih =>
    rw [List.cons_append]
    by_cases hb : b ∈ unseen
    · have hleft : (unseen.erase b).filter (fun c ↦ !(fresh stretch (unseen.erase b)).contains c)
          = unseen.filter fun c ↦ !(b :: fresh stretch (unseen.erase b)).contains c := by
        rw [hu.erase_eq_filter, List.filter_filter]
        refine List.filter_congr fun c _ ↦ ?_
        rw [List.contains_cons, Bool.not_or, Bool.and_comm]
        rfl
      rw [searchBases_cons_of_mem hb, List.append_assoc, ih _ (hu.erase b), fresh_cons_of_mem hb hu,
        List.flatMap_cons, List.cons_append, hleft, List.append_assoc]
    · rw [searchBases_cons_of_not_mem hb, ih queue hu, fresh_cons_of_not_mem hb]

/-! ## Levels -/

theorem newBases_nil (seen : List Handle) : m.newBases seen [] = [] := rfl

theorem descentTo_nil (levels : Nat) (seen : List Handle) : m.descentTo levels seen [] = [] := by
  induction levels generalizing seen with
  | zero => rfl
  | succ levels ih => rw [Model.descentTo, newBases_nil, ih, List.append_nil]

/-- The next level is what is new among the bases of this one. -/
private theorem newBases_eq_fresh {seen level unseen : List Handle}
    (hunseen : ∀ b, b ∈ unseen ↔ b < m.size ∧ b ∉ seen) :
    m.newBases seen level = fresh (level.flatMap fun h ↦ (m.get h).bases) unseen := by
  rw [Model.newBases, fresh]
  refine congrArg List.eraseDups (List.filter_congr fun b _ ↦ ?_)
  rw [Bool.eq_iff_iff, List.contains_iff_mem, hunseen]
  simp

/-- As many levels as there are unseen reflections are enough, since a level that brings nothing new is the
last. -/
theorem descentTo_eq_searchBases {levels : Nat} {seen level unseen : List Handle}
    (hu : unseen.Nodup) (hunseen : ∀ b, b ∈ unseen ↔ b < m.size ∧ b ∉ seen)
    (hlevels : unseen.length ≤ levels) :
    m.descentTo levels seen level
      = searchBases m (level.flatMap fun h ↦ (m.get h).bases) unseen := by
  induction levels generalizing seen level unseen with
  | zero =>
    have hnil : unseen = [] := List.eq_nil_of_length_eq_zero (Nat.le_zero.mp hlevels)
    have hfresh : ∀ stretch, fresh stretch [] = [] := fun stretch ↦
      List.eq_nil_iff_forall_not_mem.mpr fun b hb ↦ List.not_mem_nil (mem_fresh.mp hb).2
    rw [Model.descentTo, hnil, ← List.append_nil (level.flatMap fun h ↦ (m.get h).bases),
      searchBases_append _ _ List.nodup_nil, hfresh]
    exact (searchBases_nil _).symm
  | succ levels ih =>
    have hstep := searchBases_append (m := m) (level.flatMap fun h ↦ (m.get h).bases) [] hu
    rw [List.append_nil, List.nil_append, ← newBases_eq_fresh hunseen] at hstep
    rw [Model.descentTo, hstep]
    -- a level that brings nothing new is the last; any other uses up an unseen reflection
    by_cases hnew : m.newBases seen level = []
    · rw [hnew, descentTo_nil, List.flatMap_nil, searchBases_nil]
    · refine congrArg _ (ih (hu.filter _) ?_ ?_)
      · intro b
        rw [List.mem_filter, hunseen, List.mem_append]
        simp [and_assoc]
      · obtain ⟨b, hb⟩ := List.exists_mem_of_ne_nil _ hnew
        have hbu : b ∈ unseen := by
          rw [newBases_eq_fresh hunseen] at hb
          exact (mem_fresh.mp hb).2
        have hlt : (unseen.filter fun c ↦ !(m.newBases seen level).contains c).length
            < unseen.length := by
          refine List.length_filter_lt_length_iff_exists.mpr ⟨b, hbu, ?_⟩
          simpa using hb
        omega

/-- Any number of levels that is not less than that of the reflections gives the whole search. -/
theorem descentTo_eq_ancestorsOf {levels : Nat} (h : Handle) (hlevels : m.size ≤ levels) :
    m.descentTo levels [h] [h] = ancestorsOf m h := by
  have hu : ((List.range m.size).erase h).Nodup := List.nodup_range.erase h
  have hunseen : ∀ b, b ∈ (List.range m.size).erase h ↔ b < m.size ∧ b ∉ [h] := by
    intro b
    rw [List.nodup_range.mem_erase_iff, List.mem_range, List.mem_singleton, and_comm]
  have hlength : ((List.range m.size).erase h).length ≤ levels :=
    Nat.le_trans (le_of_le_of_eq List.length_erase_le List.length_range) hlevels
  rw [ancestorsOf, descentTo_eq_searchBases hu hunseen hlength, List.flatMap_cons,
    List.flatMap_nil, List.append_nil]

/-- **The search by a queue is the line of descent**, whatever the bases are. -/
theorem ancestorsOf_eq_descent (m : Model) (h : Handle) : ancestorsOf m h = m.descent h :=
  (descentTo_eq_ancestorsOf h (Nat.le_refl m.size)).symm

end RefCheck.Index
