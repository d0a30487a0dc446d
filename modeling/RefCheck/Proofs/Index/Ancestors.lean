import Mathlib.Logic.Function.Iterate
import RefCheck.Proofs.Index.Distance
import RefCheck.Proofs.Index.Tables

/-!
# Ancestors and their events

What an index says about the ancestors of a class, for bases that repeat, lead back to the class, or lead
through what is no class. `ancestors_nearest_first` has three parts: the search that makes the list comes to
an end, the list holds what the class descends from, nearest first, and the event of a name is that of the
class or of the first in the list that declares one.

## Why the search ends

The queue of a search can hold one reflection many times, so its length says nothing. But each round takes
one from its front, and only a reflection that is new puts its bases at the end, once. The rounds are
therefore as many as the class and its ancestors name bases (`iterate_round`).
-/

namespace RefCheck

/-! ## Rounds of a search -/

/-- A search for ancestors on its way. -/
structure Search where
  /-- The ancestors found so far, in order. -/
  found : List Handle
  /-- What is still to be looked at. -/
  queue : List Handle

namespace Search

/-- One round of the search from `h`: the first of the queue is taken if it is a reflection that was not met
before, and its bases go to the end of the queue. -/
def round (m : Model) (h : Handle) (s : Search) : Search :=
  match s.queue with
  | [] => s
  | b :: rest =>
    if b = h ∨ b ∈ s.found ∨ m.size ≤ b then ⟨s.found, rest⟩
    else ⟨s.found ++ [b], rest ++ (m.get b).bases⟩

/-- The search from `h` before its first round. -/
def start (m : Model) (h : Handle) : Search := ⟨[], (m.get h).bases⟩

variable {m : Model} {h : Handle}

/-- **Every search ends**: there is a round for each that waits in the queue, and for each base of what is
still found. -/
theorem iterate_round {found unseen : List Handle} (queue : List Handle) (hu : unseen.Nodup)
    (hunseen : ∀ b, b ∈ unseen ↔ b < m.size ∧ b ≠ h ∧ b ∉ found) :
    (round m h)^[queue.length
        + ((Index.searchBases m queue unseen).flatMap fun b ↦ (m.get b).bases).length] ⟨found, queue⟩
      = ⟨found ++ Index.searchBases m queue unseen, []⟩ := by
  induction queue, unseen using Index.searchBases.induct m generalizing found with
  | case1 unseen =>
    rw [Index.searchBases_nil, List.append_nil]
    rfl
  | case2 unseen b rest hb ih =>
    obtain ⟨hsize, hne, hnew⟩ := (hunseen b).mp hb
    have hround : round m h ⟨found, b :: rest⟩ = ⟨found ++ [b], rest ++ (m.get b).bases⟩ :=
      if_neg fun hmet ↦ hmet.elim hne fun hmet ↦ hmet.elim hnew (Nat.not_le.mpr hsize)
    have hnext : ∀ c, c ∈ unseen.erase b ↔ c < m.size ∧ c ≠ h ∧ c ∉ found ++ [b] := by
      intro c
      rw [hu.mem_erase_iff, hunseen, List.mem_append, List.mem_singleton, not_or]
      constructor
      · exact fun hc ↦ ⟨hc.2.1, hc.2.2.1, hc.2.2.2, hc.1⟩
      · exact fun hc ↦ ⟨hc.2.2.2, hc.1, hc.2.1, hc.2.2.1⟩
    have htail := ih (hu.erase b) hnext
    -- the bases of `b` are counted with the queue from now on
    have hrounds : (b :: rest).length
          + ((b :: Index.searchBases m (rest ++ (m.get b).bases) (unseen.erase b)).flatMap
              fun c ↦ (m.get c).bases).length
        = (rest ++ (m.get b).bases).length
          + ((Index.searchBases m (rest ++ (m.get b).bases) (unseen.erase b)).flatMap
              fun c ↦ (m.get c).bases).length + 1 := by
      rw [List.flatMap_cons, List.length_append, List.length_append, List.length_cons]
      omega
    rw [Index.searchBases_cons_of_mem hb, hrounds, Function.iterate_succ_apply, hround, htail,
      List.append_assoc, List.singleton_append]
  | case3 unseen b rest hb ih =>
    have hmet : b = h ∨ b ∈ found ∨ m.size ≤ b := by
      by_contra hnot
      rw [not_or, not_or, Nat.not_le] at hnot
      exact hb ((hunseen b).mpr ⟨hnot.2.2, hnot.1, hnot.2.1⟩)
    have hround : round m h ⟨found, b :: rest⟩ = ⟨found, rest⟩ := if_pos hmet
    rw [Index.searchBases_cons_of_not_mem hb, List.length_cons, Nat.add_right_comm,
      Function.iterate_succ_apply, hround, ih hu hunseen]

/-- From its start a search ends after as many rounds as there are bases to look at, with the line of
descent. -/
theorem iterate_round_start (m : Model) (h : Handle) :
    (round m h)^[((h :: m.descent h).flatMap fun b ↦ (m.get b).bases).length] (start m h)
      = ⟨m.descent h, []⟩ := by
  have hunseen : ∀ b, b ∈ (List.range m.size).erase h ↔ b < m.size ∧ b ≠ h ∧ b ∉ [] := by
    intro b
    rw [List.nodup_range.mem_erase_iff, List.mem_range]
    exact ⟨fun hb ↦ ⟨hb.2, hb.1, List.not_mem_nil⟩, fun hb ↦ ⟨hb.2.1, hb.1⟩⟩
  have hend := iterate_round (m.get h).bases (List.nodup_range.erase h) hunseen
  rw [List.nil_append] at hend
  rw [← Index.ancestorsOf_eq_descent, List.flatMap_cons, List.length_append]
  exact hend

end Search

/-! ## Events -/

namespace Model

/-- A reflection declares an event of a name. -/
def DeclaresEvent (m : Model) (name : String) (h e : Handle) : Prop :=
  e ∈ (m.get h).children ∧ (m.get e).kind.meets .event = true ∧ (m.get e).name = name

/-- A class or interface of the project declares some event of a name. -/
def OffersEvent (m : Model) (name : String) (h : Handle) : Prop :=
  h ∈ m.walk ∧ (m.get h).isContainer = true ∧ ∃ e, m.DeclaresEvent name h e

/-- A class, or a class or interface of the project that it descends from, declares an event of a name. -/
def KnowsEvent (m : Model) (name : String) (h : Handle) : Prop :=
  ∃ n a, m.Descends h n a ∧ m.OffersEvent name a

/-- What is found for the name of an event, for a class with a list of ancestors. -/
structure FindsEvent (m : Model) (h : Handle) (ancestors : List Handle) (name : String)
    (found : Option Handle) : Prop where
  /-- The class comes first. -/
  own : (∃ e, m.DeclaresEvent name h e) → ∃ e, found = some e ∧ m.DeclaresEvent name h e
  /-- Else the first ancestor that declares one counts, and none that does is nearer. -/
  inherited : (¬∃ e, m.DeclaresEvent name h e) → ∀ before a after,
    ancestors = before ++ a :: after → (∀ b ∈ before, ¬m.OffersEvent name b) → m.OffersEvent name a →
      (∃ e, found = some e ∧ m.DeclaresEvent name a e) ∧
        ∀ b ∈ ancestors, m.OffersEvent name b →
          ∀ n k, m.IsAway h n a → m.IsAway h k b → n ≤ k
  /-- Nothing is found exactly if neither does. -/
  none_iff : found = none ↔ (¬∃ e, m.DeclaresEvent name h e) ∧ ∀ a ∈ ancestors, ¬m.OffersEvent name a

variable {m : Model} {h : Handle} {name : String}

theorem declaresEvent_iff {e : Handle} (he : e ∈ (m.get h).children) :
    m.DeclaresEvent name h e ↔ ((m.get e).kind.meets .event && (m.get e).name == name) = true := by
  rw [DeclaresEvent, and_iff_right he, Bool.and_eq_true, beq_iff_eq]

theorem declaresEvent_of_declaredEvent? {e : Handle} (he : m.declaredEvent? name h = some e) :
    m.DeclaresEvent name h e := by
  have hfound := List.find?_some he
  exact (declaresEvent_iff (List.mem_of_find?_eq_some he)).mpr hfound

theorem declaredEvent?_eq_none_iff :
    m.declaredEvent? name h = none ↔ ¬∃ e, m.DeclaresEvent name h e := by
  simp [declaredEvent?, DeclaresEvent]

/-- What is found along a list of ancestors, among those that declare an event. -/
def eventAlong? (m : Model) (name : String) (ancestors : List Handle) : Option Handle :=
  (ancestors.filter fun a ↦ m.walk.contains a && (m.get a).isContainer).findSome?
    (m.declaredEvent? name)

theorem eventAlong?_eq_none_iff {ancestors : List Handle} :
    m.eventAlong? name ancestors = none ↔ ∀ a ∈ ancestors, ¬m.OffersEvent name a := by
  rw [eventAlong?, List.findSome?_eq_none_iff]
  simp only [List.mem_filter, Bool.and_eq_true, List.contains_iff_mem, declaredEvent?_eq_none_iff,
    OffersEvent, not_and, and_imp]

/-- The first ancestor that declares an event of the name decides. -/
theorem eventAlong?_eq_declaredEvent? {before : List Handle} {a : Handle}
    (hbefore : ∀ b ∈ before, ¬m.OffersEvent name b) (ha : m.OffersEvent name a) (after : List Handle) :
    m.eventAlong? name (before ++ a :: after) = m.declaredEvent? name a := by
  have hkept : (m.walk.contains a && (m.get a).isContainer) = true := by
    rw [Bool.and_eq_true, List.contains_iff_mem]
    exact ⟨ha.1, ha.2.1⟩
  obtain ⟨e, he⟩ := Option.ne_none_iff_exists'.mp (mt declaredEvent?_eq_none_iff.mp (not_not.mpr ha.2.2))
  have hnone : m.eventAlong? name before = none := eventAlong?_eq_none_iff.mpr hbefore
  rw [eventAlong?] at hnone ⊢
  rw [List.filter_append, List.findSome?_append, hnone, Option.none_or, List.filter_cons,
    if_pos hkept, List.findSome?_cons, he]

/-- What it declares is found. -/
theorem exists_eventAlong? {before : List Handle} {a : Handle}
    (hbefore : ∀ b ∈ before, ¬m.OffersEvent name b) (ha : m.OffersEvent name a) (after : List Handle) :
    ∃ e, m.eventAlong? name (before ++ a :: after) = some e ∧ m.DeclaresEvent name a e := by
  obtain ⟨e, he⟩ := Option.ne_none_iff_exists'.mp (mt declaredEvent?_eq_none_iff.mp (not_not.mpr ha.2.2))
  exact ⟨e, (eventAlong?_eq_declaredEvent? hbefore ha after).trans he, declaresEvent_of_declaredEvent? he⟩

/-- **Events of a class** are found in the class itself, then along its line of descent. -/
theorem findsEvent_eventNamed? (hc : (m.get h).isContainer = true) (name : String) :
    m.FindsEvent h (m.descent h) name (m.eventNamed? h name) := by
  have hfound : m.eventNamed? h name
      = (m.declaredEvent? name h).or (m.eventAlong? name (m.descent h)) := by
    rw [eventNamed?, if_pos hc, List.findSome?_cons, eventAlong?]
    cases m.declaredEvent? name h <;> rfl
  rw [hfound]
  refine ⟨fun hown ↦ ?_, fun hown before a after hsplit hbefore ha ↦ ?_, ?_⟩
  · obtain ⟨e, he⟩ := Option.ne_none_iff_exists'.mp
      (mt declaredEvent?_eq_none_iff.mp (not_not.mpr hown))
    exact ⟨e, by rw [he, Option.some_or], declaresEvent_of_declaredEvent? he⟩
  · obtain ⟨e, he, hdeclares⟩ := exists_eventAlong? hbefore ha after
    rw [declaredEvent?_eq_none_iff.mpr hown, hsplit]
    refine ⟨⟨e, by rw [Option.none_or, he], hdeclares⟩, fun b hb hoffers n k hna hkb ↦ ?_⟩
    have hordered := (listsAncestors_descent m h).ordered
    rw [hsplit, List.pairwise_append, List.pairwise_cons] at hordered
    -- the nearest come first, and none before `a` offers the event
    rcases List.mem_append.mp hb with hb | hb
    · exact absurd hoffers (hbefore b hb)
    · rcases List.mem_cons.mp hb with rfl | hb
      · exact Nat.le_of_eq (hna.unique hkb)
      · exact (hordered.2.1.1 b hb).le hna hkb
  · rw [Option.or_eq_none_iff, declaredEvent?_eq_none_iff, eventAlong?_eq_none_iff]

end Model

namespace Index

variable {m : Model} {h : Handle}

/-- An index finds no event of a name for a class exactly if neither the class nor what it descends from declares
one. -/
theorem event?_eq_none_iff (hh : h ∈ m.walk) (hc : (m.get h).isContainer = true) {name : String} :
    (build m).event? h name = none ↔ ¬m.KnowsEvent name h := by
  have hlists := m.listsAncestors_descent h
  rw [event?_build hh, (Model.findsEvent_eventNamed? hc name).none_iff]
  constructor
  · rintro ⟨hself, habove⟩ ⟨n, a, hdescends, hoffers⟩
    by_cases hne : a = h
    · exact hself (hne ▸ hoffers.2.2)
    · cases n with
      | zero =>
        cases hdescends
        exact hne rfl
      | succ n => exact habove a ((hlists.mem_iff a).mpr ⟨hne, n, hdescends⟩) hoffers
  · refine fun hnone ↦ ⟨fun hself ↦ hnone ⟨0, h, .here, hh, hc, hself⟩, fun a ha hoffers ↦ ?_⟩
    obtain ⟨-, n, hdescends⟩ := (hlists.mem_iff a).mp ha
    exact hnone ⟨n + 1, a, hdescends, hoffers⟩

/-- **The ancestors of a class**, for every class of a project and whatever its bases are: the search for them
ends after a round for each base that the class and its ancestors name, they are listed nearest first, and they
decide which event a name finds. -/
theorem ancestors_nearest_first (hh : h ∈ m.walk) (hc : (m.get h).isContainer = true) :
    (Search.round m h)^[((h :: (build m).ancestors h).flatMap fun b ↦ (m.get b).bases).length]
        (Search.start m h) = ⟨(build m).ancestors h, []⟩ ∧
      m.ListsAncestors h ((build m).ancestors h) ∧
      ∀ name, m.FindsEvent h ((build m).ancestors h) name ((build m).event? h name) := by
  rw [ancestors_build hh hc]
  refine ⟨Search.iterate_round_start m h, m.listsAncestors_descent h, fun name ↦ ?_⟩
  rw [event?_build hh]
  exact Model.findsEvent_eventNamed? hc name

/-- A class with a base that is named twice, itself among its bases, and a base that is no class and whose
only base leads back to it. Two of the types that it descends from declare an event `e`. -/
def tangled : Model where
  name := "p"
  roots := [0]
  reflections := #[
    { Reflection.free 1 "m" .module none [] false with children := [1, 2, 3, 4, 5] },
    { Reflection.free 2 "C" .classKind none [] false with bases := [2, 3, 2, 1], parent := some 0 },
    { Reflection.free 3 "A" .classKind none [] false with bases := [4, 1], parent := some 0 },
    { Reflection.free 4 "T" .typeAlias none [] false with bases := [5], parent := some 0 },
    { Reflection.free 5 "D" .classKind none [] false with children := [6], parent := some 0 },
    { Reflection.free 6 "E" .interface none [] false with
      bases := [3], children := [7], parent := some 0 },
    { Reflection.free 7 "e" .event none [] false with parent := some 4 },
    { Reflection.free 8 "e" .event none [] false with parent := some 5 }]

/-- The event comes from the first of two types that are equally far away. -/
theorem ancestors_tangled : 1 ∈ tangled.walk ∧ (tangled.get 1).isContainer = true ∧
    tangled.ListsAncestors 1 [2, 3, 4, 5] ∧ tangled.FindsEvent 1 [2, 3, 4, 5] "e" (some 6) := by
  have hwalk : 1 ∈ tangled.walk := by decide +kernel
  have hcontainer : (tangled.get 1).isContainer = true := by decide +kernel
  have hancestors : (build tangled).ancestors 1 = [2, 3, 4, 5] :=
    (ancestors_build hwalk hcontainer).trans (by decide +kernel)
  have hevent : (build tangled).event? 1 "e" = some 6 :=
    (event?_build hwalk "e").trans (by decide +kernel)
  obtain ⟨-, hlists, hfinds⟩ := ancestors_nearest_first hwalk hcontainer
  have hfind := hfinds "e"
  rw [hancestors] at hlists hfind
  rw [hevent] at hfind
  exact ⟨hwalk, hcontainer, hlists, hfind⟩

end Index

end RefCheck
