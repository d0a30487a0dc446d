import RefCheck.Proofs.Check.Checkable

/-!
# Leaving more out

Settings leave out declarations by the segments of their paths. What is left out is not examined, and that is
all: the index, the owners of a declaration and what its references name are those of the whole model. So with
more segments a pass takes the very same steps at the declarations that remain, and none at the others.

A trace does not say at which declaration a step was taken, and an issue about a signature may come from the
signature or from its owner. `Check.examine` is the trace with the declaration that is examined beside each step;
`map_snd_examine` forgets it again.
-/

namespace RefCheck

open RefCheck.Log

variable {m : Model} {ix : Index}

namespace Model

/-- The segments of the path at which a declaration is written. -/
def sourceSegments (m : Model) (h : Handle) : List String :=
  match (m.sourceOf? h).map Source.path with
  | some (.str path) => pathSegments path
  | _ => []

/-- None of some segments is on the path at which a declaration is written. -/
def isOutside (m : Model) (excluded : List String) (h : Handle) : Bool :=
  (m.sourceSegments h).all fun segment ↦ !excluded.contains segment

theorem isOutside_eq_true_iff {excluded : List String} {h : Handle} :
    m.isOutside excluded h = true ↔ ∀ e ∈ excluded, e ∉ m.sourceSegments h := by
  rw [isOutside, List.all_eq_true]
  simp only [Bool.not_eq_true', List.contains_eq_mem, decide_eq_false_iff_not]
  exact ⟨fun h e he hs ↦ h e hs he, fun h e hs he ↦ h e he hs⟩

theorem isOutside_of_subset {excluded more : List String} (hsub : excluded ⊆ more) {h : Handle}
    (hh : m.isOutside more h = true) : m.isOutside excluded h = true :=
  isOutside_eq_true_iff.mpr fun e he ↦ isOutside_eq_true_iff.mp hh e (hsub he)

/-- Segments that are left out are one of the things by which a declaration belongs to the project; nothing else
depends on them. -/
theorem isOwn_eq_ok_true_iff_isOutside {excluded : List String} {h : Handle} :
    m.isOwn (.ok excluded) h = .ok true ↔
      (m.isAnonymous h = false ∧ m.isLost h = false ∧
        ∃ source path, m.sourceOf? h = some source ∧ source.path = .str path) ∧
      m.isOutside excluded h = true := by
  have hsegments : ∀ {source : Source} {path : String}, m.sourceOf? h = some source →
      source.path = .str path → m.sourceSegments h = pathSegments path := by
    intro source path hsource hpath
    rw [sourceSegments, hsource, Option.map_some, hpath]
  rw [isOwn_eq_ok_true_iff, isOutside_eq_true_iff, and_assoc, and_assoc]
  refine and_congr_right fun _ ↦ and_congr_right fun _ ↦ ?_
  constructor
  · rintro ⟨source, hsource, hkept⟩
    obtain ⟨path, _, hpath, hexcluded, hout⟩ := sourceKept_eq_ok_true_iff.mp hkept
    cases hexcluded
    rw [hsegments hsource hpath]
    exact ⟨⟨source, path, hsource, hpath⟩, hout⟩
  · rintro ⟨⟨source, path, hsource, hpath⟩, hout⟩
    rw [hsegments hsource hpath] at hout
    exact ⟨source, hsource, sourceKept_eq_ok_true_iff.mpr ⟨path, excluded, hpath, rfl, hout⟩⟩

/-- With more segments, those declarations of the project remain that are outside all of them. -/
theorem isOwn_eq_ok_true_iff_of_subset {excluded more : List String} (hsub : excluded ⊆ more)
    {h : Handle} : m.isOwn (.ok more) h = .ok true ↔
      m.isOwn (.ok excluded) h = .ok true ∧ m.isOutside more h = true := by
  rw [isOwn_eq_ok_true_iff_isOutside, isOwn_eq_ok_true_iff_isOutside]
  constructor
  · rintro ⟨hnative, hout⟩
    exact ⟨⟨hnative, isOutside_of_subset hsub hout⟩, hout⟩
  · rintro ⟨⟨hnative, -⟩, hout⟩
    exact ⟨hnative, hout⟩

end Model

namespace Check

variable {excluded : Excluded} {c : Check}

/-! ## Steps and where they are taken -/

/-- The trace of a check, each step with the declaration that is examined. -/
def examine (c : Check) (ix : Index) (m : Model) (excluded : Excluded) : Trace (Handle × Step) :=
  .ofResult (m.ownOfKind c.mask excluded) fun hs ↦ .forEach hs fun h ↦ (c.test ix m h).map (h, ·)

/-- **Without the declarations beside its steps** it is the trace of the check. -/
theorem map_snd_examine : (c.examine ix m excluded).map Prod.snd = c.runWith ix m excluded := by
  have hsteps : ∀ (h : Handle) (t : Trace Step), (t.map (h, ·)).map Prod.snd = t := by
    intro h t
    rw [Trace.map, Trace.map, List.map_map]
    exact congrArg (Trace.mk · t.fault) (List.map_id t.steps)
  rw [examine, Trace.map_ofResult, runWith_eq_forOwn, forOwn]
  refine congrArg _ (funext fun hs ↦ ?_)
  rw [Trace.map_forEach]
  exact Trace.forEach_congr fun h _ ↦ hsteps h (c.test ix m h)

theorem steps_examine (hends : c.Ends ix m excluded) :
    (c.examine ix m excluded).steps
      = (m.walk.filter (c.looksAt m excluded)).flatMap fun h ↦
          (c.test ix m h).steps.map (h, ·) := by
  have hfault : ∀ h ∈ m.walk.filter (c.looksAt m excluded),
      ((c.test ix m h).map (h, ·)).fault = none := fault_test_of_looksAt hends
  rw [examine, ownOfKind_eq_ok hends, Trace.ofResult, Trace.forEach_eq_of_fault_eq_none hfault]
  rfl

/-- A check looks at a declaration with more segments if it does with fewer, and the declaration is outside. -/
theorem looksAt_of_subset {fewer more : List String} (hsub : fewer ⊆ more) (h : Handle) :
    c.looksAt m (.ok more) h = (m.isOutside more h && c.looksAt m (.ok fewer) h) := by
  rw [Bool.eq_iff_iff, Bool.and_eq_true, looksAt, looksAt, Bool.and_eq_true, Bool.and_eq_true,
    toOption_beq_some_true_iff, toOption_beq_some_true_iff,
    Model.isOwn_eq_ok_true_iff_of_subset hsub]
  constructor
  · rintro ⟨hkind, hown, hout⟩
    exact ⟨hout, hkind, hown⟩
  · rintro ⟨hout, hkind, hown⟩
    exact ⟨hkind, hown, hout⟩

/-- What is picked by the item that it comes from comes from the items that are picked. -/
private theorem filter_flatMap_map {α β : Type} (items : List α) (f : α → List β) (keep : α → Bool) :
    (items.flatMap fun a ↦ (f a).map (a, ·)).filter (fun s ↦ keep s.1)
      = (items.filter keep).flatMap fun a ↦ (f a).map (a, ·) := by
  induction items with
  | nil => rfl
  | cons a items ih =>
    rw [List.flatMap_cons, List.filter_append, ih, List.filter_map, List.filter_cons]
    have hsame : (fun s : α × β ↦ keep s.1) ∘ (a, ·) = fun _ ↦ keep a := rfl
    rw [hsame]
    cases keep a with
    | true => rw [List.filter_true, if_pos rfl, List.flatMap_cons]
    | false => rw [List.filter_false, List.map_nil, List.nil_append, if_neg Bool.false_ne_true]

/-- **With more segments the steps at remaining declarations stay**, and no others. -/
theorem steps_examine_of_subset {fewer more : List String} (hsub : fewer ⊆ more)
    (hfewer : c.Ends ix m (.ok fewer)) (hmore : c.Ends ix m (.ok more)) :
    (c.examine ix m (.ok more)).steps
      = (c.examine ix m (.ok fewer)).steps.filter fun s ↦ m.isOutside more s.1 := by
  rw [steps_examine hmore, steps_examine hfewer, filter_flatMap_map, List.filter_filter,
    funext (looksAt_of_subset hsub)]

end Check

namespace Pass

/-! ## Issues and where they are found -/

/-- The issues of a check in a pass, each with the declaration at whose examination it is found. -/
def trail (m : Model) (excluded : Excluded) (c : Check) : List (Handle × Issue) :=
  (c.examine (Index.build m) m excluded).steps.filterMap fun s ↦
    (stepIssue? c.name s.2).map (s.1, ·)

theorem map_snd_trail {excluded : Excluded} {c : Check}
    (hends : c.Ends (Index.build m) m excluded) :
    (trail m excluded c).map Prod.snd = found m excluded c := by
  have hissue : ∀ s : Handle × Check.Step,
      ((stepIssue? c.name s.2).map (s.1, ·)).map Prod.snd = stepIssue? c.name s.2 := by
    intro s
    cases stepIssue? c.name s.2 <;> rfl
  rw [found, ← Check.issues_runWith hends, ← filterMap_stepIssue?, ← Check.map_snd_examine, trail,
    List.map_filterMap, funext hissue, Trace.map, List.filterMap_map]
  rfl

theorem trail_of_subset {fewer more : List String} (hsub : fewer ⊆ more) {c : Check}
    (hfewer : c.Ends (Index.build m) m (.ok fewer)) (hmore : c.Ends (Index.build m) m (.ok more)) :
    trail m (.ok more) c = (trail m (.ok fewer) c).filter fun i ↦ m.isOutside more i.1 := by
  rw [trail, trail, Check.steps_examine_of_subset hsub hfewer hmore, List.filterMap_filter,
    List.filter_filterMap]
  refine congrArg (List.filterMap · _) (funext fun s ↦ ?_)
  cases stepIssue? c.name s.2 with
  | none => exact ite_self none
  | some i => rfl

/-- **Leaving more out only takes findings away.** Two passes over a model that can be checked run the same checks,
and what the one leaves out the other leaves out too. Both come to their end, and the issues of the pass that
leaves out more are those of the other that were found while a declaration was examined that is outside all that is
left out, in the same order. At these declarations every check takes the very same steps, so what they mention
resolves as before, also where it leads to what is left out. -/
theorem exists_reports_of_subset (hm : m.IsCheckable) {fewer more : List String}
    (hsub : fewer ⊆ more) (strict : Bool) (cs : List Check) (id : String) (duration : Binary64) :
    ∃ report report' : Report,
      (run m (CheckSettings.plan ⟨strict, cs, fewer⟩) id duration).result = .ok report ∧
      (run m (CheckSettings.plan ⟨strict, cs, more⟩) id duration).result = .ok report' ∧
      report.issues = (cs.flatMap (trail m (.ok fewer))).map Prod.snd ∧
      report'.issues = ((cs.flatMap (trail m (.ok fewer))).filter fun i ↦
        m.isOutside more i.1).map Prod.snd ∧
      ∀ c : Check,
        (c.examine (Index.build m) m (.ok fewer)).map Prod.snd
          = c.runWith (Index.build m) m (.ok fewer) ∧
        (c.examine (Index.build m) m (.ok more)).map Prod.snd
          = c.runWith (Index.build m) m (.ok more) ∧
        (c.examine (Index.build m) m (.ok more)).steps
          = (c.examine (Index.build m) m (.ok fewer)).steps.filter fun s ↦ m.isOutside more s.1 := by
  have hends : ∀ (es : List String) (c : Check), c.Ends (Index.build m) m (.ok es) :=
    fun es c ↦ hm.ends c _ es
  have hissues : ∀ es : List String,
      cs.flatMap (found m (.ok es)) = (cs.flatMap (trail m (.ok es))).map Prod.snd := by
    intro es
    rw [List.map_flatMap]
    exact List.flatMap_congr fun c _ ↦ (map_snd_trail (hends es c)).symm
  have htrail : cs.flatMap (trail m (.ok more))
      = (cs.flatMap (trail m (.ok fewer))).filter fun i ↦ m.isOutside more i.1 := by
    rw [List.filter_flatMap]
    exact List.flatMap_congr fun c _ ↦ trail_of_subset hsub (hends fewer c) (hends more c)
  refine ⟨_, _, result_run_plan hm strict cs fewer id duration,
    result_run_plan hm strict cs more id duration, hissues fewer, ?_, fun c ↦ ?_⟩
  · rw [← htrail]
    exact hissues more
  · exact ⟨Check.map_snd_examine, Check.map_snd_examine,
      Check.steps_examine_of_subset hsub (hends fewer c) (hends more c)⟩

/-- A model of two modules, the second of which is a dependency. The first links to it and to what is not there, and
the dependency has a link of its own that leads nowhere. -/
def modelDepending : Model :=
  ⟨"p", [0, 1], #[
    Reflection.free 1 "m" .module
      (some ⟨[⟨.inlineTag, "module:n", .str "@link"⟩, ⟨.inlineTag, "module:x", .str "@link"⟩], []⟩)
      [⟨"a.ts", 1, .null⟩] false,
    Reflection.free 2 "n" .module (some ⟨[⟨.inlineTag, "module:y", .str "@link"⟩], []⟩)
      [⟨"node_modules\x5cn.ts", 1, .null⟩] false]⟩

theorem isCheckable_modelDepending : modelDepending.IsCheckable where
  down := by decide +kernel
  up := by decide +kernel
  tags h hh c hc p hp := by
    have hlinks : ∀ h ∈ [0, 1], ∀ c ∈ (modelDepending.get h).comment, ∀ p ∈ c.parts,
        p.tag.text?.isSome = true := by decide +kernel
    have htext := hlinks h hh c hc p hp
    cases htag : p.tag with
    | str s => exact .inr ⟨s, rfl⟩
    | null | bool | int | float | arr | obj =>
      rw [htag] at htext
      cases htext
  sources h hh k hk s hs := by
    -- each module is all that encloses it
    rcases List.mem_pair.mp hh with rfl | rfl <;>
      · rw [List.mem_singleton.mp hk] at hs
        rw [List.mem_singleton.mp hs]
        exact .inl rfl

/-- Once dependencies are left out, the link of the dependency is not told of. Those of the module are read as
before: the one that leads to the dependency resolves, and the other one does not. -/
theorem exists_reports_of_subset_depending :
    modelDepending.IsCheckable ∧ ∃ report report' : Report,
      (run modelDepending (CheckSettings.plan ⟨false, [.links], []⟩) ""
        Report.empty.duration).result = .ok report ∧
      (run modelDepending (CheckSettings.plan ⟨false, [.links], ["node_modules"]⟩) ""
        Report.empty.duration).result = .ok report' ∧
      (report.issues.map fun i ↦ (i.message.text?, i.reflection))
        = [(some (Check.linkMessage "module:x"), 0), (some (Check.linkMessage "module:y"), 1)] ∧
      (report'.issues.map fun i ↦ (i.message.text?, i.reflection))
        = [(some (Check.linkMessage "module:x"), 0)] := by
  obtain ⟨report, report', hrun, hrun', hissues, hissues', -⟩ :=
    exists_reports_of_subset isCheckable_modelDepending (List.nil_subset ["node_modules"]) false
      [.links] "" Report.empty.duration
  refine ⟨isCheckable_modelDepending, report, report', hrun, hrun', ?_, ?_⟩
  · rw [hissues]
    decide +kernel
  · rw [hissues']
    decide +kernel

end Pass

end RefCheck
