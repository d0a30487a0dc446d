import RefCheck.Check.Pass
import RefCheck.Proofs.Check.Decides

/-!
# The verdict of a pass

A pass runs checks one after another and is clean if none of them found anything. So its verdict is what its
checks decide, taken together: `exists_run`, for any choice of checks in any order. With all of them among
these, a pass over the model of a file always comes to an end, and it is clean exactly if the project is, as
`Model.Clean` has it. How strict the pass is, what it is called and how long it takes do not matter.
-/

namespace RefCheck

open RefCheck.Log RefCheck.Check

variable {m : Model} {excluded : List String}

theorem Report.status_eq_clean_iff_issues (r : Report) : r.status = "clean" ↔ r.issues = [] := by
  rw [Report.status]
  cases r.issues with
  | nil => exact iff_of_true rfl rfl
  | cons i issues =>
    have hdirty : ¬"dirty" = "clean" := by decide
    exact iff_of_false hdirty (List.cons_ne_nil i issues)

/-! ## Plans by name -/

/-- The checks that a plan names are those that run. -/
theorem Plan.checks_eq_ok {plan : Plan} {cs : List Check}
    (h : plan.validators = cs.map fun c ↦ .str c.name) : plan.checks = .ok cs := by
  have hnamed : ∀ cs : List Check, Plan.named (cs.map fun c ↦ .str c.name) = .ok (cs.map .inl) := by
    intro cs
    induction cs with
    | nil => rfl
    | cons c cs ih =>
      rw [List.map_cons, Plan.named, ih, named?, ofName?_name]
      rfl
  have hleft : (cs.map (Sum.inl : Check → Check ⊕ Value)).filterMap Sum.getLeft? = cs := by
    rw [List.filterMap_map]
    exact List.filterMap_some
  have hright : (cs.map (Sum.inl : Check → Check ⊕ Value)).filterMap Sum.getRight? = [] := by
    rw [List.filterMap_map, List.filterMap_eq_nil_iff]
    exact fun c _ ↦ rfl
  rw [Plan.checks, h, hnamed]
  simp only [bind, Except.bind]
  rw [hright, hleft]
  rfl

namespace Pass

/-! ## One check after another -/

/-- A step is an issue of the pass as it is one of the check. -/
private theorem filterMap_stepIssue?_eq_nil_iff {steps : List Check.Step} {validator : String} :
    steps.filterMap (stepIssue? validator) = [] ↔ ∀ s ∈ steps, s.issue? = none := by
  rw [List.filterMap_eq_nil_iff]
  refine forall_congr' fun s ↦ imp_congr_right fun _ ↦ ?_
  rw [stepIssue?, Option.map_eq_none_iff]

/-- If each check comes to an end then so do all of them in a row, and together they find nothing exactly if
each of them finds nothing. -/
theorem exists_runChecks {ix : Index} {plan : Plan} {P : Check → Prop} {cs : List Check}
    (h : ∀ c ∈ cs, Decides (c.runWith ix m plan.excluded) (P c)) (found : List Issue) :
    ∃ issues, (runChecks ix m plan found cs).result = .ok (found ++ issues) ∧
      (issues = [] ↔ ∀ c ∈ cs, P c) := by
  induction cs generalizing found with
  | nil =>
    refine ⟨[], by rw [runChecks, List.append_nil], iff_of_true rfl ?_⟩
    exact fun c hc ↦ (List.not_mem_nil hc).elim
  | cons c cs ih =>
    -- the others run on top of what this check has found
    obtain ⟨hfault, hfree⟩ := h c List.mem_cons_self
    obtain ⟨issues, hrun, hissues⟩ := ih (fun d hd ↦ h d (List.mem_cons_of_mem c hd))
      (found ++ (c.runWith ix m plan.excluded).steps.filterMap (stepIssue? c.name))
    refine ⟨(c.runWith ix m plan.excluded).steps.filterMap (stepIssue? c.name) ++ issues, ?_, ?_⟩
    · rw [runChecks]
      dsimp only
      rw [hfault]
      dsimp only
      rw [hrun, List.append_assoc]
    · rw [List.append_eq_nil_iff, filterMap_stepIssue?_eq_nil_iff, hfree, hissues,
        List.forall_mem_cons]

/-- **A pass with any checks** comes to its end, and is clean exactly if the project passes each of them. -/
theorem exists_run (hm : m.IsTree) (hl : m.Legible) {plan : Plan} {cs : List Check}
    (hchecks : plan.validators = cs.map fun c ↦ .str c.name)
    (hexcluded : plan.excluded = .ok excluded) (id : String) (duration : Binary64) :
    ∃ report, (run m plan id duration).result = .ok report ∧
      (report.status = "clean" ↔ ∀ c ∈ cs, m.Passes excluded c) := by
  have hdecides : ∀ c ∈ cs,
      Decides (c.runWith (Index.build m) m plan.excluded) (m.Passes excluded c) := by
    intro c _
    rw [hexcluded]
    exact decides_runWith hm hl c
  obtain ⟨issues, hrun, hissues⟩ := exists_runChecks hdecides []
  rw [List.nil_append] at hrun
  refine ⟨⟨plan.strict, plan.validators, issues, duration⟩, ?_, ?_⟩
  · rw [run, Plan.checks_eq_ok hchecks]
    dsimp only
    rw [hrun]
  · rw [Report.status_eq_clean_iff_issues, hissues]

/-! ## Models of files -/

/-- **Clean means clean.** Over the model of a file, with every check among those that run, a pass comes to
its end, and it is clean exactly if nothing is wrong with the comments of the project. -/
theorem status_eq_clean_iff {data : Value} {told : List Event}
    (hload : Model.ofValue data = ⟨told, .ok m⟩) (hl : m.Legible) {plan : Plan} {cs : List Check}
    (hchecks : plan.validators = cs.map fun c ↦ .str c.name) (hall : ∀ c : Check, c ∈ cs)
    (hexcluded : plan.excluded = .ok excluded) (id : String) (duration : Binary64) :
    ∃ report, (run m plan id duration).result = .ok report ∧
      (report.status = "clean" ↔ m.Clean excluded) := by
  obtain ⟨report, hrun, hstatus⟩ :=
    exists_run (Model.isTree_of_load hload) hl hchecks hexcluded id duration
  refine ⟨report, hrun, hstatus.trans ?_⟩
  rw [Model.clean_iff_forall_passes]
  exact forall_congr' fun c ↦ imp_iff_right (hall c)

/-- A model file with one declaration, whose comment has one link. -/
def fileLinking (kind : Int) (link : String) : Value :=
  .obj [("name", .str "p"), ("children", .arr [node])]
where
  /-- The node of the declaration. -/
  node : Value :=
    .obj [("id", .int 1), ("name", .str "m"), ("kind", .int kind),
      ("sources", .arr [.obj [("fileName", .str "a.ts"), ("line", .int 1)]]),
      ("comment", .obj [("summary", .arr [.obj [("kind", .str "inline-tag"), ("tag", .str "@link"),
        ("text", .str link)]])])]

/-- The model of such a file. -/
def modelLinking (kind : Kind) (link : String) : Model :=
  ⟨"p", [0], #[Reflection.free 1 "m" kind (some ⟨[⟨.inlineTag, link, .str "@link"⟩], []⟩)
    [⟨"a.ts", 1, .null⟩] false]⟩

theorem ofValue_fileLinking (kind : Int) (link : String) :
    Model.ofValue (fileLinking kind link) = ⟨[], .ok (modelLinking (.ofInt kind) link)⟩ := by
  have hnode : Outline.ofValue (fileLinking.node kind link) = .ok (.node ⟨1, "m", .ofInt kind,
      some ⟨[⟨.inlineTag, link, .str "@link"⟩], []⟩, [⟨"a.ts", 1, .null⟩], false⟩
      (fileLinking.node kind link) [] []) := Model.ofValue_leaf rfl rfl rfl
  have htop : Outline.topLevel (fileLinking kind link)
      = (do return [← Outline.ofValue (fileLinking.node kind link)]) := rfl
  rw [hnode] at htop
  rw [Model.ofValue, Model.load, htop]
  rfl

theorem legible_modelLinking (kind : Kind) (link : String) : (modelLinking kind link).Legible := by
  have hwalk : ∀ h ∈ (modelLinking kind link).walk, h = 0 := fun h hh ↦ List.mem_singleton.mp hh
  constructor
  · intro h hh c hc p hp
    rw [hwalk h hh] at hc
    cases hc
    rw [List.mem_singleton.mp hp]
    exact .inr ⟨"@link", rfl⟩
  · intro h hh s hs
    rw [hwalk h hh] at hs
    rw [List.mem_singleton.mp hs]
    exact .inl rfl

/-- A module whose comment links to the module itself: the project is clean, for a pass over it finds
nothing. -/
theorem clean_modelLinking :
    Model.ofValue (fileLinking 2 "module:m") = ⟨[], .ok (modelLinking .module "module:m")⟩ ∧
      (modelLinking .module "module:m").Clean defaultExcluded := by
  have hload : Model.ofValue (fileLinking 2 "module:m")
      = ⟨[], .ok (modelLinking .module "module:m")⟩ := ofValue_fileLinking 2 "module:m"
  have hall : ∀ c : Check, c ∈ Check.all := fun c ↦ by cases c <;> decide
  have hplan : Plan.standard.validators = Check.all.map fun c ↦ .str c.name := rfl
  obtain ⟨report, hrun, hstatus⟩ := status_eq_clean_iff hload (legible_modelLinking _ _) hplan hall
    rfl "" Report.empty.duration
  have hclean : (run (modelLinking .module "module:m") Plan.standard ""
      Report.empty.duration).result.toOption.map Report.status = some "clean" := by decide +kernel
  rw [hrun] at hclean
  exact ⟨hload, hstatus.mp (Option.some.inj hclean)⟩

/-- Links are followed on declarations of a known kind only: over a declaration of another kind a pass is
clean although a link of its comment leads nowhere. -/
theorem clean_of_unknown_kind :
    Model.ofValue (fileLinking 0x2000000 "module:x~Y")
        = ⟨[], .ok (modelLinking ⟨0x2000000⟩ "module:x~Y")⟩ ∧
      (modelLinking ⟨0x2000000⟩ "module:x~Y").Legible ∧
      (run (modelLinking ⟨0x2000000⟩ "module:x~Y") Plan.standard ""
        Report.empty.duration).result.toOption.map Report.status = some "clean" ∧
      ∃ h ∈ (modelLinking ⟨0x2000000⟩ "module:x~Y").walk,
        (modelLinking ⟨0x2000000⟩ "module:x~Y").isOwn (.ok defaultExcluded) h = .ok true ∧
        ∃ c, ((modelLinking ⟨0x2000000⟩ "module:x~Y").get h).comment = some c ∧
          ∃ p ∈ c.parts, p.IsLink ∧
            ¬(modelLinking ⟨0x2000000⟩ "module:x~Y").HasTarget h (linkTarget p.text) := by
  refine ⟨ofValue_fileLinking _ _, legible_modelLinking _ _, by decide +kernel, ?_⟩
  refine ⟨0, List.mem_singleton_self 0, rfl, _, rfl, _, List.mem_singleton_self _,
    ⟨rfl, "@link", by decide, rfl⟩, ?_⟩
  intro htarget
  obtain ⟨r, h, hread, hfound⟩ := htarget (by decide)
  have hparse : Reference.parse? "module:x~Y"
      = some ⟨"module:x~Y", some ["x"], some "Y", none, .none, none⟩ := by decide
  cases hparse.symm.trans hread
  cases hfound

end Pass

end RefCheck
