import RefCheck.Proofs.Check.Ending

/-!
# Models that can be checked

A model that is put together by hand need not be a tree. A reflection may stand in several lists, and what it
knows as its owner need not be what holds it. A pass still comes to its end over such a model, whatever it is
asked to check, as long as no way down or up goes on for ever and the names that are looked up are texts or left
out: `IsCheckable.ends`. The model of a file is checkable if its names are legible.
-/

namespace RefCheck.Model

open RefCheck.Check

variable {m : Model} {h : Handle}

/-- What a check reads at a declaration are parts of comments that the declaration carries. -/
theorem exists_carries_of_mem_partsRead {c : Check} {p : Part} (hp : p ∈ c.partsRead m h) :
    ∃ owner comment, m.Carries h owner comment ∧ p ∈ comment.parts := by
  cases c with
  | overloads | fires => cases hp
  | see =>
    obtain ⟨⟨owner, comment⟩, howned, hp⟩ := List.mem_flatMap.mp hp
    obtain ⟨t, ht, hp⟩ := List.mem_flatMap.mp hp
    refine ⟨owner, comment, mem_ownedComments.mp howned, List.mem_append_right _ ?_⟩
    exact List.mem_flatMap.mpr ⟨t, List.mem_of_mem_filter ht, hp⟩
  | links =>
    obtain ⟨comment, hcomment, hp⟩ := List.mem_flatMap.mp hp
    exact ⟨h, comment, ⟨.inl rfl, Option.mem_toList.mp hcomment⟩, hp⟩

/-- A model that every check comes to the end of. -/
structure IsCheckable (m : Model) : Prop where
  /-- Every way down comes to an end. -/
  down : m.isEndless m.roots = false
  /-- So does every way up. -/
  up : ∀ h ∈ m.walk, (m.enclosing h).length ≤ m.size
  /-- The parts of comments have texts for tags, or none. -/
  tags : ∀ h ∈ m.walk, ∀ c, (m.get h).comment = some c → ∀ p ∈ c.parts, p.tag.IsTextOrNull
  /-- The sources that a declaration can have have texts for full names, or none. -/
  sources : ∀ h ∈ m.walk, ∀ k ∈ m.enclosing h, ∀ s ∈ (m.get k).sources,
    s.fullFileName.IsTextOrNull

/-- A tree with legible names can be checked. -/
theorem IsTree.isCheckable (hm : m.IsTree) (hl : m.Legible) : m.IsCheckable where
  down := hm.finite
  up _ hh := hm.length_enclosing_le hh
  tags := hl.tags
  sources _ hh k hk := hl.sources k (hm.mem_walk_of_mem_enclosing hh hk)

namespace IsCheckable

theorem isLost_eq_false (hm : m.IsCheckable) (hh : h ∈ m.walk) : m.isLost h = false := by
  have hlt : ¬m.size < (m.enclosing h).length := Nat.not_lt.mpr (hm.up h hh)
  rw [isLost, decide_eq_false hlt, Bool.false_and]

theorem mem_walk_of_signature (hm : m.IsCheckable) (hh : h ∈ m.walk) {s : Handle}
    (hs : s ∈ (m.get h).signatures) : s ∈ m.walk :=
  mem_walk_of_owned_of_finite hm.down hh (List.mem_append_left _ hs)

/-- Whether a declaration belongs to the project can be told. -/
theorem exists_isOwn (hm : m.IsCheckable) (hh : h ∈ m.walk) (excluded : List String) :
    ∃ own, m.isOwn (.ok excluded) h = .ok own := by
  refine (exists_isOwn_iff (hm.isLost_eq_false hh)).mpr fun _ s hsource ↦ ?_
  obtain ⟨k, hk, hs⟩ := mem_sources_of_sourceAlong hsource
  exact exists_path (hm.sources h hh k hk s hs)

theorem isReadable_of_mem_partsRead (hm : m.IsCheckable) (hh : h ∈ m.walk) {c : Check} {p : Part}
    (hp : p ∈ c.partsRead m h) : p.IsReadable := by
  obtain ⟨owner, comment, ⟨howner, hcomment⟩, hp⟩ := exists_carries_of_mem_partsRead hp
  have hwalk : owner ∈ m.walk := by
    rcases howner with rfl | hsignature
    · exact hh
    · exact hm.mem_walk_of_signature hh hsignature
  exact fun _ ↦ (hm.tags owner hwalk comment hcomment p hp).isName

/-- **Every check comes to its end** over a model that can be checked. -/
theorem ends (hm : m.IsCheckable) (c : Check) (ix : Index) (excluded : List String) :
    c.Ends ix m (.ok excluded) := by
  intro h hh _
  obtain ⟨own, hown⟩ := hm.exists_isOwn hh excluded
  refine ⟨own, hown, fun _ ↦ ?_⟩
  refine (fault_test_eq_none_iff_of_isLost (hm.isLost_eq_false hh) fun s hs ↦ ?_).mpr fun p hp ↦ ?_
  · exact hm.isLost_eq_false (hm.mem_walk_of_signature hh hs)
  · exact hm.isReadable_of_mem_partsRead hh hp

end IsCheckable

end RefCheck.Model

namespace RefCheck.Pass

variable {m : Model}

/-- **A pass with settings comes to its end** over a model that can be checked, and reports what its checks find,
one after another. -/
theorem result_run_plan (hm : m.IsCheckable) (strict : Bool) (cs : List Check)
    (excluded : List String) (id : String) (duration : Binary64) :
    (run m (CheckSettings.plan ⟨strict, cs, excluded⟩) id duration).result
      = .ok ⟨.bool strict, cs.map fun c ↦ .str c.name, cs.flatMap (found m (.ok excluded)),
          duration⟩ := by
  have hvalidators : (CheckSettings.plan ⟨strict, cs, excluded⟩).validators
      = cs.map fun c ↦ .str c.name := by
    rw [CheckSettings.plan, CheckSettings.validatorNames, List.map_map]
    rfl
  refine result_run_eq_ok_iff.mpr ⟨cs, Plan.checks_eq_ok hvalidators, fun c _ ↦ ?_, ?_⟩
  · exact hm.ends c _ excluded
  · rw [hvalidators]
    rfl

end RefCheck.Pass
