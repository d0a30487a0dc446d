import RefCheck.Proofs.Check.Accused
import RefCheck.Proofs.Check.Verdict
import RefCheck.Settings.Basic

/-!
# Passes that come to their end

The model of a file is a tree, so no way up goes on for ever. What may still stop a pass are two kinds of values
that a file brings along and that are kept as they are: the path of a source that is no text, and the name of an
inline tag that is an array or an object. `exists_report_iff` says that nothing else does, and where each of
them is met: a path at any declaration of a kind that a check looks at, the name of a tag only at declarations of
the project, by links in all of a comment and by `@see` in what its tags hold.

A report is then missing for the whole model, whatever else there is to check.
-/

namespace RefCheck

open RefCheck.Log

variable {m : Model} {ix : Index} {h owner : Handle} {c : Check}

namespace Check

/-- The parts of comments whose names a check looks up at a declaration. -/
def partsRead (c : Check) (m : Model) (h : Handle) : List Part :=
  match c with
  | see => (ownedComments m h).flatMap fun owned ↦
      (owned.2.tagsNamed seeTag).flatMap BlockTag.content
  | links => (m.get h).comment.toList.flatMap Comment.parts
  | overloads | fires => []

/-- Several mentions come to their end once they are found, if the place of their owner can be told. -/
theorem fault_mentions_eq_none_iff {result : Except Fault (List String)}
    {message : String → String} (hlost : m.isLost owner = false) :
    (Trace.ofResult result fun texts ↦
        .forEach texts (expectMention ix m owner message)).fault = none ↔
      ∃ texts, result = .ok texts := by
  cases result with
  | error f => exact iff_of_false (Option.some_ne_none f) fun hok ↦ by cases hok.choose_spec
  | ok texts =>
    refine iff_of_true ?_ ⟨texts, rfl⟩
    refine Trace.fault_forEach_eq_none_iff.mpr fun text _ ↦ ?_
    exact fault_expectMention_eq_none_iff.mpr fun r _ _ ↦ hlost

/-- What stops a test is a name that cannot be looked up, where the place of the declaration and those of its
signatures can be told. -/
theorem fault_test_eq_none_iff_of_isLost (hself : m.isLost h = false)
    (hsignatures : ∀ s ∈ (m.get h).signatures, m.isLost s = false) :
    (c.test ix m h).fault = none ↔ ∀ p ∈ c.partsRead m h, p.IsReadable := by
  have howned : ∀ owned ∈ ownedComments m h, m.isLost owned.1 = false := by
    intro owned hmem
    rcases (mem_ownedComments.mp hmem).1 with heq | hsignature
    · rwa [heq]
    · exact hsignatures owned.1 hsignature
  cases c with
  | overloads =>
    refine iff_of_true ?_ fun p hp ↦ (List.not_mem_nil hp).elim
    refine Trace.fault_forEach_eq_none_iff.mpr fun s hs ↦ fault_accuse_eq_none_iff.mpr ?_
    exact hsignatures s (mem_unlabelled.mp hs).2.1
  | see =>
    have htag : ∀ owned ∈ ownedComments m h, ∀ t ∈ owned.2.tagsNamed seeTag,
        ((seeTagTrace ix m owned.1 t).fault = none ↔ ∀ p ∈ t.content, p.IsReadable) := by
      intro owned hmem t _
      rw [seeTagTrace, fault_mentions_eq_none_iff (howned owned hmem),
        BlockTag.exists_seeTargets_iff]
    rw [test, partsRead, Trace.fault_forEach_eq_none_iff, List.forall_mem_flatMap]
    refine forall_congr' fun owned ↦ forall_congr' fun hmem ↦ ?_
    rw [Trace.fault_forEach_eq_none_iff, List.forall_mem_flatMap]
    exact forall_congr' fun t ↦ forall_congr' fun ht ↦ htag owned hmem t ht
  | links =>
    rw [test, linksOf, partsRead]
    cases (m.get h).comment with
    | none => exact iff_of_true rfl fun p hp ↦ (List.not_mem_nil hp).elim
    | some comment =>
      dsimp only
      rw [fault_mentions_eq_none_iff hself, Comment.exists_linkTargets_iff,
        Option.toList_some, List.flatMap_singleton]
  | fires =>
    refine iff_of_true ?_ fun p hp ↦ (List.not_mem_nil hp).elim
    refine Trace.fault_forEach_eq_none_iff.mpr fun owned hmem ↦ ?_
    refine Trace.fault_forEach_eq_none_iff.mpr fun t _ ↦ ?_
    exact fault_firesTagTrace_eq_none_iff.mpr fun _ _ _ _ _ ↦ howned owned hmem

/-- **What stops a test** in a tree is a name that cannot be looked up. -/
theorem fault_test_eq_none_iff (hm : m.IsTree) (hh : h ∈ m.walk) :
    (c.test ix m h).fault = none ↔ ∀ p ∈ c.partsRead m h, p.IsReadable :=
  fault_test_eq_none_iff_of_isLost (isLost_eq_false hm hh) fun _ hs ↦
    isLost_eq_false hm (hm.mem_walk_of_signature hh hs)

end Check

namespace Pass

/-- **Which passes have a report.** Over the model of a file, a pass comes to its end exactly if every path that
decides whether a declaration belongs to the project is a text, and every name of an inline tag can be looked
up which a check reads at a declaration of the project. -/
theorem exists_report_iff {data : Value} {told : List Event}
    (hload : Model.ofValue data = ⟨told, .ok m⟩) (s : CheckSettings) (id : String)
    (duration : Binary64) :
    (∃ report, (run m s.plan id duration).result = .ok report) ↔
      ∀ c ∈ s.validators, ∀ h ∈ m.walk, (m.get h).kind.meets c.mask = true →
        (m.isAnonymous h = false → ∀ source, m.sourceOf? h = some source →
          ∃ path, source.path = .str path) ∧
        (m.isOwn (.ok s.excludedPaths) h = .ok true → ∀ p ∈ c.partsRead m h, p.IsReadable) := by
  have hm := Model.isTree_of_load hload
  have hchecks : s.plan.checks = .ok s.validators := by
    refine Plan.checks_eq_ok ?_
    rw [CheckSettings.plan, CheckSettings.validatorNames, List.map_map]
    rfl
  have hreport : (∃ report, (run m s.plan id duration).result = .ok report) ↔
      ∀ c ∈ s.validators, c.Ends (Index.build m) m (.ok s.excludedPaths) := by
    constructor
    · rintro ⟨report, hrun⟩
      obtain ⟨cs, hcs, hends, -⟩ := result_run_eq_ok_iff.mp hrun
      cases hchecks.symm.trans hcs
      exact hends
    · intro hends
      exact ⟨_, result_run_eq_ok_iff.mpr ⟨s.validators, hchecks, hends, rfl⟩⟩
  rw [hreport]
  refine forall_congr' fun c ↦ imp_congr_right fun _ ↦ forall_congr' fun h ↦
    forall_congr' fun hh ↦ imp_congr_right fun _ ↦ ?_
  have htest : (c.test (Index.build m) m h).fault = none ↔ ∀ p ∈ c.partsRead m h, p.IsReadable :=
    Check.fault_test_eq_none_iff hm hh
  rw [← Model.exists_isOwn_iff (Check.isLost_eq_false hm hh), ← htest]
  constructor
  · rintro ⟨own, hown, hfault⟩
    refine ⟨⟨own, hown⟩, fun htrue ↦ hfault ?_⟩
    exact Except.ok.inj (hown.symm.trans htrue)
  · rintro ⟨⟨own, hown⟩, hfault⟩
    exact ⟨own, hown, fun htrue ↦ hfault (htrue ▸ hown)⟩

/-- A model file with one module. Its path and the name of the inline tag in its comment are as given. -/
def fileHolding (path name : Value) : Value :=
  .obj [("name", .str "p"), ("children", .arr [node])]
where
  /-- The node of the module. -/
  node : Value :=
    .obj [("id", .int 1), ("name", .str "m"), ("kind", .int 2),
      ("sources", .arr [.obj [("fileName", .str "a.ts"), ("line", .int 1), ("fullFileName", path)]]),
      ("comment", .obj [("summary", .arr [.obj [("kind", .str "inline-tag"), ("tag", name),
        ("text", .str "module:m")]])])]

/-- The model of such a file. -/
def modelHolding (path name : Value) : Model :=
  ⟨"p", [0], #[Reflection.free 1 "m" .module (some ⟨[⟨.inlineTag, "module:m", name⟩], []⟩)
    [⟨"a.ts", 1, path⟩] false]⟩

theorem ofValue_fileHolding (path name : Value) :
    Model.ofValue (fileHolding path name) = ⟨[], .ok (modelHolding path name)⟩ := by
  have hnode : Outline.ofValue (fileHolding.node path name) = .ok (.node ⟨1, "m", .module,
      some ⟨[⟨.inlineTag, "module:m", name⟩], []⟩, [⟨"a.ts", 1, path⟩], false⟩
      (fileHolding.node path name) [] []) := Model.ofValue_leaf rfl rfl rfl
  have htop : Outline.topLevel (fileHolding path name)
      = (do return [← Outline.ofValue (fileHolding.node path name)]) := rfl
  rw [hnode] at htop
  rw [Model.ofValue, Model.load, htop]
  rfl

/-- A path that is a text, and a number in place of a name, which is no name of any tag: there is a report. -/
theorem exists_report_modelHolding :
    Model.ofValue (fileHolding (.str "lib/a.ts") (.int 3))
        = ⟨[], .ok (modelHolding (.str "lib/a.ts") (.int 3))⟩ ∧
      ∃ report, (run (modelHolding (.str "lib/a.ts") (.int 3)) CheckSettings.standard.plan ""
        Report.empty.duration).result = .ok report := by
  have hload := ofValue_fileHolding (.str "lib/a.ts") (.int 3)
  refine ⟨hload, (exists_report_iff hload .standard "" Report.empty.duration).mpr ?_⟩
  intro c _ h hh _
  cases List.mem_singleton.mp hh
  constructor
  · intro _ source hsource
    cases hsource
    exact ⟨"lib/a.ts", rfl⟩
  · intro _ p hp _
    have hparts : c.partsRead (modelHolding (.str "lib/a.ts") (.int 3)) 0
        ⊆ [⟨.inlineTag, "module:m", .int 3⟩] := by
      cases c with
      | links => exact List.Subset.refl _
      | overloads | see | fires => exact List.nil_subset _
    rw [List.mem_singleton.mp (hparts hp)]
    exact trivial

/-- **Files that load and cannot be checked.** The name of an inline tag is an array, or the path of a source is
a number: either way there is no report. -/
theorem not_exists_report_modelHolding :
    (Model.ofValue (fileHolding .null (.arr [.str "@link"]))
        = ⟨[], .ok (modelHolding .null (.arr [.str "@link"]))⟩ ∧
      ¬∃ report, (run (modelHolding .null (.arr [.str "@link"])) CheckSettings.standard.plan ""
        Report.empty.duration).result = .ok report) ∧
    Model.ofValue (fileHolding (.int 5) (.str "@link"))
        = ⟨[], .ok (modelHolding (.int 5) (.str "@link"))⟩ ∧
      ¬∃ report, (run (modelHolding (.int 5) (.str "@link")) CheckSettings.standard.plan ""
        Report.empty.duration).result = .ok report := by
  have hname : (run (modelHolding .null (.arr [.str "@link"])) CheckSettings.standard.plan ""
      Report.empty.duration).result.toOption.isSome = false := by decide +kernel
  have hpath : (run (modelHolding (.int 5) (.str "@link")) CheckSettings.standard.plan ""
      Report.empty.duration).result.toOption.isSome = false := by decide +kernel
  refine ⟨⟨ofValue_fileHolding _ _, ?_⟩, ofValue_fileHolding _ _, ?_⟩
  · rintro ⟨report, hrun⟩
    rw [hrun] at hname
    cases hname
  · rintro ⟨report, hrun⟩
    rw [hrun] at hpath
    cases hpath

end Pass

end RefCheck
