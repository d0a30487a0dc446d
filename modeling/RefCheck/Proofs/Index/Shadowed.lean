import RefCheck.Proofs.Index.Ancestors

/-!
# Events that are declared and inherited

Among the children of a class can stand an event of its own and a copy of one that it inherits, both of one name.
Members are settled in favour of what the class declares itself, wherever the copy stands (`member?_build`). Events
are not: the first child counts, whether it is inherited or not. So an event that a class declares itself is found
exactly if no copy comes before it, and this is the same for the class and for every class that finds the event there
(`Index.event?_of_firstOwnEvent`).
-/

namespace RefCheck

namespace Model

/-- The first event of a name that a class declares itself, with the children of the class that come before it. -/
structure FirstOwnEvent (m : Model) (name : String) (h : Handle) (before : List Handle) (own : Handle) :
    Prop where
  /-- Where the event stands. -/
  children : ∃ after, (m.get h).children = before ++ own :: after
  /-- It is an event of the name. -/
  declares : m.DeclaresEvent name h own
  /-- It is no copy. -/
  own : (m.get own).isInherited = false
  /-- What comes before it and is an event of the name is a copy. -/
  first : ∀ c ∈ before, m.DeclaresEvent name h c → (m.get c).isInherited = true

/-- The first event of a name among the children of a class, inherited or not. -/
structure FirstEvent (m : Model) (name : String) (h e : Handle) : Prop where
  declares : m.DeclaresEvent name h e
  first : ∃ before after, (m.get h).children = before ++ e :: after ∧
    ∀ c ∈ before, ¬m.DeclaresEvent name h c

variable {m : Model} {h own : Handle} {name : String} {before : List Handle}

theorem firstEvent_of_declaredEvent? {e : Handle} (he : m.declaredEvent? name h = some e) :
    m.FirstEvent name h e := by
  obtain ⟨-, before, after, hchildren, hbefore⟩ := List.find?_eq_some_iff_append.mp he
  refine ⟨declaresEvent_of_declaredEvent? he, before, after, hchildren, fun c hc hdeclares ↦ ?_⟩
  have hnot := hbefore c hc
  rw [(declaresEvent_iff hdeclares.1).mp hdeclares] at hnot
  cases hnot

/-- What comes before the first event of one's own decides whether it is found. -/
theorem FirstOwnEvent.declaredEvent?_eq_some_iff (hown : m.FirstOwnEvent name h before own) :
    m.declaredEvent? name h = some own ↔ ∀ c ∈ before, ¬m.DeclaresEvent name h c := by
  obtain ⟨after, hchildren⟩ := hown.children
  have hmem : ∀ c ∈ before, c ∈ (m.get h).children := by
    rw [hchildren]
    exact fun c ↦ List.mem_append_left _
  rw [declaredEvent?, hchildren, List.find?_append, List.find?_cons,
    (declaresEvent_iff hown.declares.1).mp hown.declares]
  cases hcopy : before.find? fun c ↦ (m.get c).kind.meets .event && (m.get c).name == name with
  | none =>
    refine iff_of_true rfl fun c hc hdeclares ↦ List.find?_eq_none.mp hcopy c hc ?_
    exact (declaresEvent_iff (hmem c hc)).mp hdeclares
  | some c =>
    have hc : c ∈ before := List.mem_of_find?_eq_some hcopy
    have hfound := List.find?_some hcopy
    have hdeclares : m.DeclaresEvent name h c := (declaresEvent_iff (hmem c hc)).mpr hfound
    -- the copy is found, and it is not what the class declares itself
    refine iff_of_false ?_ fun hnone ↦ hnone c hc hdeclares
    rintro ⟨⟩
    have hinherited := hown.first own hc hdeclares
    rw [hown.own] at hinherited
    cases hinherited

/-- The event of a name is that of the first class on the way that declares one. -/
theorem eventNamed?_eq_declaredEvent? {d : Handle} (hd : d ∈ m.walk) (hc : (m.get d).isContainer = true)
    {near far : List Handle} (hline : d :: m.descent d = near ++ h :: far)
    (hnear : ∀ b ∈ near, ¬m.OffersEvent name b) (hoffers : m.OffersEvent name h) :
    m.eventNamed? d name = m.declaredEvent? name h := by
  have hkept : (m.walk.contains d && (m.get d).isContainer) = true := by
    rw [Bool.and_eq_true, List.contains_iff_mem]
    exact ⟨hd, hc⟩
  rw [← eventAlong?_eq_declaredEvent? hnear hoffers far, ← hline, eventAlong?, List.filter_cons,
    if_pos hkept, eventNamed?, if_pos hc]

end Model

namespace Index

variable {m : Model} {h own : Handle} {name : String} {before : List Handle}

/-- **Which event of a class is found.** If a class declares an event itself then the first event of this name among
its children is found for it, and for every class that comes to it before any other class which declares one. This
is the event that the class declares itself exactly if no copy of the name comes before that. -/
theorem event?_of_firstOwnEvent (hh : h ∈ m.walk) (hc : (m.get h).isContainer = true)
    (hown : m.FirstOwnEvent name h before own) :
    ∃ e, m.FirstEvent name h e ∧ (e = own ↔ ∀ c ∈ before, ¬m.DeclaresEvent name h c) ∧
      (build m).event? h name = some e ∧
      ∀ d ∈ m.walk, (m.get d).isContainer = true → ∀ near far,
        d :: (build m).ancestors d = near ++ h :: far → (∀ b ∈ near, ¬m.OffersEvent name b) →
          (build m).event? d name = some e := by
  have hoffers : m.OffersEvent name h := ⟨hh, hc, own, hown.declares⟩
  obtain ⟨e, he⟩ := Option.ne_none_iff_exists'.mp
    (mt Model.declaredEvent?_eq_none_iff.mp (not_not.mpr hoffers.2.2))
  have halong : ∀ d ∈ m.walk, (m.get d).isContainer = true → ∀ near far,
      d :: (build m).ancestors d = near ++ h :: far → (∀ b ∈ near, ¬m.OffersEvent name b) →
        (build m).event? d name = some e := by
    intro d hd hdc near far hline hnear
    rw [ancestors_build hd hdc] at hline
    rw [event?_build hd, Model.eventNamed?_eq_declaredEvent? hd hdc hline hnear hoffers, he]
  refine ⟨e, Model.firstEvent_of_declaredEvent? he, ?_, ?_, halong⟩
  · rw [← hown.declaredEvent?_eq_some_iff, he, Option.some.injEq]
  · exact halong h hh hc [] _ rfl fun b hb ↦ absurd hb List.not_mem_nil

/-- A class with an event `e`, a class that extends it and has a copy of the event and then an event `e` of its own,
and a class that extends this one and has no event. -/
def copied : Model where
  name := "p"
  roots := [0]
  reflections := #[
    { Reflection.free 1 "m" .module none [] false with children := [1, 3, 6] },
    { Reflection.free 2 "Base" .classKind none [] false with children := [2], parent := some 0 },
    { Reflection.free 3 "e" .event none [] false with parent := some 1 },
    { Reflection.free 4 "C" .classKind none [] false with
      bases := [1], children := [4, 5], parent := some 0 },
    { Reflection.free 5 "e" .event none [] false with inheritedFrom := some 2, parent := some 3 },
    { Reflection.free 6 "e" .event none [] false with parent := some 3 },
    { Reflection.free 7 "D" .classKind none [] false with bases := [3], parent := some 0 }]

theorem firstOwnEvent_copied : copied.FirstOwnEvent "e" 3 [4] 5 := by
  have hchildren : (copied.get 3).children = [4] ++ 5 :: [] := rfl
  refine ⟨⟨[], hchildren⟩, ⟨?_, rfl, rfl⟩, rfl, List.forall_mem_singleton.mpr fun _ ↦ rfl⟩
  rw [hchildren]
  exact List.mem_append_right _ (List.mem_singleton_self 5)

/-- The copy is found for the class that extends the one with the copy. -/
theorem event?_copied : 3 ∈ copied.walk ∧ (copied.get 3).isContainer = true ∧
    copied.FirstOwnEvent "e" 3 [4] 5 ∧ ∃ e, e ≠ 5 ∧ copied.FirstEvent "e" 3 e ∧
      (build copied).event? 3 "e" = some e ∧ (build copied).event? 6 "e" = some e := by
  have hwalk : 3 ∈ copied.walk := by decide +kernel
  have hderived : 6 ∈ copied.walk := by decide +kernel
  obtain ⟨e, hfirst, hfound, hself, hothers⟩ :=
    event?_of_firstOwnEvent hwalk rfl firstOwnEvent_copied
  have hancestors : 6 :: (build copied).ancestors 6 = [6] ++ 3 :: [1] := by
    rw [ancestors_build hderived rfl]
    decide +kernel
  have hnone : ¬copied.OffersEvent "e" 6 := by
    rintro ⟨-, -, e, he, -⟩
    cases he
  have hcopy : copied.DeclaresEvent "e" 3 4 := ⟨List.mem_cons_self, rfl, rfl⟩
  exact ⟨hwalk, rfl, firstOwnEvent_copied, e, fun h ↦ hfound.mp h 4 (List.mem_singleton_self 4) hcopy, hfirst,
    hself, hothers 6 hderived rfl [6] [1] hancestors (List.forall_mem_singleton.mpr hnone)⟩

/-- An event that a class declares itself is not what is found, neither for the class nor for the one that extends
it. -/
theorem event?_copied_ne : 3 ∈ copied.walk ∧ (copied.get 3).isContainer = true ∧
    copied.FirstOwnEvent "e" 3 [4] 5 ∧ (copied.get 4).isInherited = true ∧
      (build copied).event? 3 "e" = some 4 ∧ (build copied).event? 6 "e" = some 4 := by
  have hwalk : 3 ∈ copied.walk := by decide +kernel
  have hderived : 6 ∈ copied.walk := by decide +kernel
  refine ⟨hwalk, rfl, firstOwnEvent_copied, rfl, ?_, ?_⟩
  · rw [event?_build hwalk]
    decide +kernel
  · rw [event?_build hderived]
    decide +kernel

end Index

end RefCheck
