import RefCheck.Proofs.Check.Accused

/-!
# Whose issues are reported

A pass looks at declarations of the project itself and leaves those of dependencies alone. An issue is about
such a declaration or about one of its signatures. Links are looked at one reflection at a time, so a link is
only ever reported for a reflection that belongs to the project. The other checks decide by the declaration
whether they look at all, and then go over its signatures without asking again.

So an issue may be about a signature that does not belong to the project: one that is written in a dependency
although its method is not, that is named like a type written out in place, or whose place nobody can tell.
`isOwn_of_mem_issues` says that there is no other way, and `not_isOwn_augmentation` that these are real: a
declaration that adds a signature to one of a dependency has the signatures of both.
-/

namespace RefCheck.Pass

open RefCheck.Check RefCheck.Model

variable {m : Model} {plan : Plan} {id : String} {duration : Binary64} {report : Report}

/-- What belongs to the project has a place, and it is not one of those that are left out. -/
theorem exists_source_of_isOwn {excluded : Excluded} {i : Issue}
    (hown : m.isOwn excluded i.reflection = .ok true) :
    ∃ source path segments, m.sourceOf? i.reflection = some source ∧ i.location m = source.text ∧
      source.path = .str path ∧ excluded = .ok segments ∧ ∀ e ∈ segments, e ∉ pathSegments path := by
  obtain ⟨-, -, source, hsource, hkept⟩ := isOwn_eq_ok_true_iff.mp hown
  obtain ⟨path, segments, hpath, hexcluded, houtside⟩ := sourceKept_eq_ok_true_iff.mp hkept
  have hlocation : i.location m = source.text := by rw [Issue.location, hsource]
  exact ⟨source, path, segments, hsource, hlocation, hpath, hexcluded, houtside⟩

/-- **Whom issues are about.** Every issue of a report is about a declaration of the project itself, or about
a signature of one; a link is never reported for a signature in this way. A signature belongs to the project
exactly if nothing that it has of its own keeps it out. Whatever belongs to the project has a file and a line,
and no segment of its path is left out. -/
theorem isOwn_of_mem_issues (hrun : (run m plan id duration).result = .ok report) {i : Issue}
    (hi : i ∈ report.issues) :
    ∃ h ∈ m.walk, m.isOwn plan.excluded h = .ok true ∧
      (i.reflection = h ∨
        i.reflection ∈ (m.get h).signatures ∧ i.validator ≠ .str links.name ∧
          ((m.get i.reflection).parent = some h → (m.isOwn plan.excluded i.reflection = .ok true ↔
            m.FollowsOwner plan.excluded i.reflection))) ∧
      (m.isOwn plan.excluded i.reflection = .ok true →
        ∃ source path segments, m.sourceOf? i.reflection = some source ∧
          i.location m = source.text ∧ source.path = .str path ∧ plan.excluded = .ok segments ∧
          ∀ e ∈ segments, e ∉ pathSegments path) := by
  obtain ⟨c, -, h, hh, -, hown, f, hf, rfl⟩ := (mem_issues_iff hrun).mp hi
  obtain ⟨haccuses, hlost⟩ := accuses_of_mem_issues_test hf
  refine ⟨h, hh, hown, ?_, exists_source_of_isOwn⟩
  rcases haccuses.owner_eq_or with hself | hsignature
  · exact .inl hself
  · by_cases hlinks : c = links
    · subst hlinks
      exact .inl haccuses.1
    · have hname : Value.str c.name ≠ .str links.name :=
        fun heq ↦ hlinks (Check.name_injective (Value.str.inj heq))
      exact .inr ⟨hsignature, hname, fun howner ↦ isOwn_iff_of_owner hown howner hlost⟩

/-- A function of the project that adds to one of a dependency. Of its signatures the first has no source,
the second is the one of the dependency, and the third is of a kind that asks no owner for its source. -/
def augmentation : Model where
  name := "p"
  roots := [0]
  reflections := #[
    { Reflection.free 1 "on" .function none [⟨"a.ts", 3, .null⟩] false with signatures := [1, 2, 3] },
    { Reflection.free 2 "on" .callSignature none [] false with parent := some 0 },
    { Reflection.free 3 "on" .callSignature none [⟨"node_modules/e/index.d.ts", 9, .null⟩] false with
      parent := some 0 },
    { Reflection.free 4 "on" .indexSignature none [] false with parent := some 0 }]

theorem issues_augmentation : ∃ report,
    (run augmentation .standard "" Report.empty.duration).result = .ok report ∧
      report.issues.map Issue.reflection = [1, 2, 3] := by
  have hfound : (run augmentation .standard "" Report.empty.duration).result.toOption.map
      (fun r ↦ r.issues.map Issue.reflection) = some [1, 2, 3] := by decide +kernel
  exact exists_report hfound

/-- The signature without a source is reported, and its place is that of the function. -/
theorem isOwn_augmentation : ∃ report,
    (run augmentation .standard "" Report.empty.duration).result = .ok report ∧
      ∃ i ∈ report.issues, i.reflection = 1 ∧ (augmentation.get 1).sources = [] ∧
        augmentation.isOwn (.ok defaultExcluded) i.reflection = .ok true ∧
        i.location augmentation = "a.ts:3" := by
  obtain ⟨report, hrun, hissues⟩ := issues_augmentation
  obtain ⟨i, hi, hone⟩ : ∃ i ∈ report.issues, i.reflection = 1 :=
    List.mem_map.mp (hissues ▸ List.mem_cons_self)
  obtain ⟨h, hh, hown, habout, hplaced⟩ := isOwn_of_mem_issues hrun hi
  rw [hone] at habout hplaced
  have hfollows : augmentation.FollowsOwner (.ok defaultExcluded) 1 :=
    ⟨by decide, fun _ ↦ by decide, fun source hsource ↦ by cases hsource⟩
  have hsignature : augmentation.isOwn (.ok defaultExcluded) 1 = .ok true := by
    rcases habout with hself | ⟨hmem, -, hiff⟩
    · rw [hself]
      exact hown
    · have howner : ∀ k ∈ augmentation.walk, 1 ∈ (augmentation.get k).signatures → k = 0 := by decide
      exact (hiff (by rw [howner h hh hmem]; rfl)).mpr hfollows
  obtain ⟨source, -, -, hsource, hlocation, -⟩ := hplaced hsignature
  refine ⟨report, hrun, i, hi, hone, rfl, by rw [hone]; exact hsignature, ?_⟩
  cases hsource
  exact hlocation

/-- **A finding against a dependency.** Of the three signatures that are reported for want of a label, one is
written in a dependency, and nobody can tell the place of another. -/
theorem not_isOwn_augmentation : ∃ report,
    (run augmentation .standard "" Report.empty.duration).result = .ok report ∧
      (∃ i ∈ report.issues, augmentation.isOwn (.ok defaultExcluded) i.reflection = .ok false ∧
        i.location augmentation = "node_modules/e/index.d.ts:9") ∧
      ∃ i ∈ report.issues, augmentation.isOwn (.ok defaultExcluded) i.reflection = .ok false ∧
        i.location augmentation = "<unknown>:on" := by
  obtain ⟨report, hrun, hissues⟩ := issues_augmentation
  obtain ⟨i, hi, htwo⟩ : ∃ i ∈ report.issues, i.reflection = 2 :=
    List.mem_map.mp (hissues ▸ List.mem_cons_of_mem 1 List.mem_cons_self)
  obtain ⟨j, hj, hthree⟩ : ∃ j ∈ report.issues, j.reflection = 3 :=
    List.mem_map.mp (hissues ▸ List.mem_cons_of_mem 1 (List.mem_cons_of_mem 2 List.mem_cons_self))
  refine ⟨report, hrun, ⟨i, hi, ?_, ?_⟩, ⟨j, hj, ?_, ?_⟩⟩
  · rw [htwo]
    rfl
  · rw [Issue.location, htwo]
    rfl
  · rw [hthree]
    rfl
  · rw [Issue.location, hthree]
    rfl

end RefCheck.Pass
