import RefCheck.Proofs.Check.Carried
import RefCheck.Proofs.Model.Rearranged
import RefCheck.Settings.Read

/-!
# Models that grow

A node is added at the end of a model file. What was there keeps its handle, so the old model is the beginning
of the new one, and nothing that resolved stops resolving or comes to name something else: of several exports
of one name the first counts, and the old ones come first.

A pass over the new model goes over the old declarations before the new ones. At the old ones it finds no more
than before, and issues stay where their declarations are, so the old issues that are left stand before the new
ones as long as no check runs twice.
-/

namespace RefCheck

open RefCheck.Log RefCheck.Model

/-! ## Checks that run once -/

namespace Settings

theorem accepted_of_zipWith {α β γ : Type} {f : α → β → γ} {a : Checked α} {b : Checked β} {c : γ}
    (h : Checked.zipWith f a b = .accepted c) :
    ∃ x y, a = .accepted x ∧ b = .accepted y ∧ c = f x y := by
  cases a <;> cases b <;> cases h
  exact ⟨_, _, rfl, rfl, rfl⟩

theorem nodup_of_readChecks {d : Yaml.Data} {cs : List Check}
    (h : readChecks d = .accepted cs) : cs.Nodup := by
  rw [readChecks] at h
  cases hread : readList readText d with
  | accepted names =>
    rw [hread, Checked.andThen, checksNamed] at h
    split at h
    · cases h
      exact (by decide : Check.all.Nodup).filter _
    · cases h
  | refused e es =>
    rw [hread] at h
    cases h
  | stopped f =>
    rw [hread] at h
    cases h

/-- **Settings name each check at most once**, however often it was written down. -/
theorem nodup_validators_of_readValidation {d : Yaml.Data} {s : CheckSettings}
    (h : readValidation d = .accepted s) : s.plan.validators.Nodup := by
  have hchecks : s.validators.Nodup := by
    rw [readValidation, readSection] at h
    split at h
    · obtain ⟨strict, rest, -, hrest, rfl⟩ := accepted_of_zipWith h
      obtain ⟨cs, paths, hcs, -, rfl⟩ := accepted_of_zipWith hrest
      rw [readField] at hcs
      split at hcs
      · next given _ =>
        cases hread : readChecks given with
        | accepted cs' =>
          rw [hread] at hcs
          cases hcs
          exact nodup_of_readChecks hread
        | refused e es =>
          rw [hread] at hcs
          cases hcs
        | stopped f =>
          rw [hread] at hcs
          cases hcs
      · cases hcs
        exact (by decide : CheckSettings.standard.validators.Nodup)
    · cases h
  have hnames : Function.Injective fun c : Check ↦ Value.str c.name :=
    fun c c' hname ↦ Pass.Check.name_injective (Value.str.inj hname)
  rw [CheckSettings.plan, CheckSettings.validatorNames, List.map_map]
  exact hchecks.map hnames

end Settings

/-- The issue is about a reflection of a model. -/
def Issue.isIn (m : Model) (i : Issue) : Bool := m.walk.contains i.reflection

namespace Pass

variable {m m' : Model} {added : List Handle}

/-! ## What a check finds -/

/-- What owns an old reflection is old. -/
private theorem not_mem_walk_of_added (he : m.Embeds (fun h ↦ h) m') (hwalk : m'.walk = m.walk ++ added)
    {h k : Handle} (hh : h ∈ added) (hk : k = h ∨ k ∈ (m'.get h).signatures) : k ∉ m.walk := by
  have hnew : h ∉ m.walk := by
    have hnodup := he.closed_image.nodup_walk
    rw [hwalk] at hnodup
    exact fun hold ↦ List.disjoint_of_nodup_append hnodup hold hh
  rcases hk with rfl | hk
  · exact hnew
  · intro hold
    have hhw : h ∈ m'.walk := by
      rw [hwalk]
      exact List.mem_append_right _ hh
    have hparent := he.closed_image.parent_owned h hhw k (List.mem_append_left _ hk)
    rw [he.get_eq k hold, Reflection.relink_self] at hparent
    exact hnew (he.closed.mem_walk_of_parent hold hparent)

/-- **What a check finds in a model that has grown**: first some of what it found before, then what it finds
about new reflections. -/
theorem exists_found_of_append (he : m.Embeds (fun h ↦ h) m') (hwalk : m'.walk = m.walk ++ added)
    (excluded : Excluded) (c : Check) :
    ∃ old new, found m' excluded c = old ++ new ∧ old.Sublist (found m excluded c) ∧
      (∀ i ∈ old, i.isIn m = true) ∧ ∀ i ∈ new, i.isIn m = false := by
  have hx := he.keepsExports_of_append hwalk
  have hfewer : ∀ h ∈ m.walk, (c.findings (Index.build m') m' excluded h).Sublist
      (c.findings (Index.build m) m excluded h) := by
    intro h hh
    have hsub := he.findings_image hx hh c excluded
    rwa [show (Check.carry fun h ↦ h) = id from rfl, List.map_id] at hsub
  refine ⟨_, _, by rw [found, hwalk, List.flatMap_append, List.map_append], ?_, ?_, ?_⟩
  · exact (List.Sublist.flatMap_right m.walk hfewer).map _
  · intro i hi
    obtain ⟨f, hf, rfl⟩ := List.mem_map.mp hi
    obtain ⟨h, hh, hf⟩ := List.mem_flatMap.mp hf
    -- it was found before, so it is about what was there before
    have hbefore := (hfewer h hh).subset hf
    exact List.contains_iff_mem.mpr
      (Check.mem_walk_of_mem_findings he.closed.toIsTree hh hbefore)
  · intro i hi
    obtain ⟨f, hf, rfl⟩ := List.mem_map.mp hi
    obtain ⟨h, hh, hf⟩ := List.mem_flatMap.mp hf
    have hnew := not_mem_walk_of_added he hwalk hh (Check.mem_findings hf)
    rw [Issue.isIn, Bool.eq_false_iff]
    exact fun hold ↦ hnew (List.contains_iff_mem.mp hold)

/-! ## Reports -/

/-- Where nothing runs twice, the checks of one name are one at most. -/
private theorem filter_name_eq {cs : List Check} (hcs : cs.Nodup) (validator : String) :
    cs.filter (fun c ↦ c.name == validator) = []
      ∨ ∃ c, cs.filter (fun c ↦ c.name == validator) = [c] := by
  have hnodup := hcs.filter fun c ↦ c.name == validator
  have hname : ∀ c ∈ cs.filter (fun c ↦ c.name == validator), c.name = validator :=
    fun c hc ↦ beq_iff_eq.mp (List.mem_filter.mp hc).2
  cases hf : cs.filter fun c ↦ c.name == validator with
  | nil => exact .inl rfl
  | cons c rest =>
    rw [hf] at hnodup hname
    obtain ⟨hc, hrest⟩ := List.forall_mem_cons.mp hname
    have hnone : rest = [] := by
      refine List.eq_nil_iff_forall_not_mem.mpr fun d hd ↦ ?_
      have heq : d = c := Check.name_injective ((hrest d hd).trans hc.symm)
      exact (List.nodup_cons.mp hnodup).1 (heq ▸ hd)
    exact .inr ⟨c, by rw [hnone]⟩

/-- Issues about old reflections that stand before those about new ones are told apart again. -/
private theorem filter_isIn_append {old new : List Issue} (hold : ∀ i ∈ old, i.isIn m = true)
    (hnew : ∀ i ∈ new, i.isIn m = false) :
    (old ++ new).filter (Issue.isIn m) = old ∧ ((old ++ new).filter fun i ↦ !i.isIn m) = new := by
  have hnone : new.filter (Issue.isIn m) = [] :=
    List.filter_eq_nil_iff.mpr fun i hi ↦ by simp [hnew i hi]
  have hnone' : (old.filter fun i ↦ !i.isIn m) = [] :=
    List.filter_eq_nil_iff.mpr fun i hi ↦ by simp [hold i hi]
  constructor
  · rw [List.filter_append, List.filter_eq_self.mpr hold, hnone, List.append_nil]
  · rw [List.filter_append, hnone', List.nil_append]
    exact List.filter_eq_self.mpr fun i hi ↦ by simp [hnew i hi]

/-- The issues of one check in two reports over a model and over what it has grown to. -/
theorem issuesOf_of_append (he : m.Embeds (fun h ↦ h) m') (hwalk : m'.walk = m.walk ++ added)
    {plan : Plan} {id id' : String} {duration duration' : Binary64} {report report' : Report}
    (hrun : (run m plan id duration).result = .ok report)
    (hrun' : (run m' plan id' duration').result = .ok report') (validator : String) :
    ((report'.issuesOf validator).filter (Issue.isIn m)).Sublist (report.issuesOf validator) ∧
      (plan.validators.Nodup → report'.issuesOf validator
        = (report'.issuesOf validator).filter (Issue.isIn m) ++
          (report'.issuesOf validator).filter fun i ↦ !i.isIn m) := by
  obtain ⟨cs, hcs, -, rfl⟩ := result_run_eq_ok_iff.mp hrun
  obtain ⟨cs', hcs', -, rfl⟩ := result_run_eq_ok_iff.mp hrun'
  cases hcs.symm.trans hcs'
  rw [Report.issuesOf, Report.issuesOf, filter_validator_flatMap_found,
    filter_validator_flatMap_found]
  constructor
  · rw [List.filter_flatMap]
    refine List.Sublist.flatMap_right _ fun c _ ↦ ?_
    obtain ⟨old, new, hfound, hsub, hold, hnew⟩ := exists_found_of_append he hwalk plan.excluded c
    rw [hfound, (filter_isIn_append hold hnew).1]
    exact hsub
  · intro honce
    rw [Plan.validators_eq_of_checks hcs] at honce
    rcases filter_name_eq (honce.of_map _) validator with hnone | ⟨c, hone⟩
    · rw [hnone]
      rfl
    · obtain ⟨old, new, hfound, -, hold, hnew⟩ := exists_found_of_append he hwalk plan.excluded c
      obtain ⟨hkept, hleft⟩ := filter_isIn_append hold hnew
      rw [hone, List.flatMap_singleton, hfound, hkept, hleft]

/-! ## Files -/

/-- **Growing breaks no reference.** A node is added at the end of the top level of a file, and no node of the
file names a number that is new in it. Then the old model is the beginning of the new one; what a reference
names in the old one it names in the new one; and of every check, a report over the new model has no more
issues about old reflections than before, in their order, and these stand before those about new ones if no
check runs twice. Settings never make a check run twice (`Settings.nodup_validators_of_readValidation`); a plan
that is made by hand may. -/
theorem keeps_of_append {data child : Value} {nodes : List Value} {os : List Outline} {o : Outline}
    {told told' : List Event} (hnodes : topNodes data = .ok nodes)
    (hos : nodes.mapM Outline.ofValue = .ok os) (ho : Outline.ofValue child = .ok o)
    (hfresh : ∀ i ∈ Outline.ids [o], i ∉ Outline.targetIds os)
    (hload : Model.ofValue data = ⟨told, .ok m⟩)
    (hload' : Model.ofValue (withTopNodes data (nodes ++ [child])) = ⟨told', .ok m'⟩) :
    (∃ added, m'.walk = m.walk ++ added ∧ ∀ h ∈ m.walk, m'.get h = m.get h) ∧
      (∀ (r : Reference) (context h : Handle), context ∈ m.walk →
        (Index.build m).resolve? m r context = some h →
          (Index.build m').resolve? m' r context = some h) ∧
      ∀ (plan : Plan) (id id' : String) (duration duration' : Binary64) (report report' : Report),
        (run m plan id duration).result = .ok report →
        (run m' plan id' duration').result = .ok report' → ∀ validator : String,
          ((report'.issuesOf validator).filter (Issue.isIn m)).Sublist
              (report.issuesOf validator) ∧
            (plan.validators.Nodup → report'.issuesOf validator
              = (report'.issuesOf validator).filter (Issue.isIn m) ++
                (report'.issuesOf validator).filter fun i ↦ !i.isIn m) := by
  obtain ⟨name, os₁, -, htop, -, rfl⟩ := ofValue_eq_ok_iff.mp ⟨told, hload⟩
  obtain ⟨name', os₂, -, htop', -, rfl⟩ := ofValue_eq_ok_iff.mp ⟨told', hload'⟩
  cases (hos.symm.trans ((topLevel_eq hnodes).symm.trans htop) :)
  have hmore : (nodes ++ [child]).mapM Outline.ofValue = .ok (os ++ [o]) := by
    rw [List.mapM_append, hos, List.mapM_cons, ho]
    rfl
  cases (hmore.symm.trans ((topLevel_withTopNodes hnodes).symm.trans htop') :)
  have he : (ofOutlines name os).Embeds (fun h ↦ h) (ofOutlines name' (os ++ [o])) :=
    embeds_append hfresh
  have hwalk := walk_ofOutlines_append name name' os [o]
  refine ⟨⟨_, hwalk, fun h hh ↦ ?_⟩, ?_, ?_⟩
  · rw [he.get_eq h hh, Reflection.relink_self]
  · intro r context h hc hr
    exact he.resolve?_image (he.keepsExports_of_append hwalk) hc hr
  · intro plan id id' duration duration' report report' hrun hrun' validator
    exact issuesOf_of_append he hwalk hrun hrun' validator

/-- A module that links to another one, which is added: the issue about the link goes, and the only issue left
is that of the new module, whose own link leads nowhere. -/
theorem keeps_of_append_module :
    ∃ m m' report report', (∃ told, Model.ofValue (fileOfModules [(1, "m", "module:n")])
          = ⟨told, .ok m⟩) ∧
      (∃ told, Model.ofValue (fileOfModules [(1, "m", "module:n"), (2, "n", "module:q")])
          = ⟨told, .ok m'⟩) ∧
      (run m .standard "" Report.empty.duration).result = .ok report ∧
      (run m' .standard "" Report.empty.duration).result = .ok report' ∧
      (Index.build m').resolve? m' ⟨"module:m", some ["m"], none, none, .none, none⟩ 0 = some 0 ∧
      (report.issuesOf "links").map Issue.reflection = [0] ∧
      (report'.issuesOf "links").map Issue.reflection = [1] ∧
      ((report'.issuesOf "links").filter (Issue.isIn m)).Sublist (report.issuesOf "links") ∧
      report'.issuesOf "links" = (report'.issuesOf "links").filter (Issue.isIn m) ++
        (report'.issuesOf "links").filter fun i ↦ !i.isIn m := by
  obtain ⟨told, hload⟩ := ofValue_fileOfModules [(1, "m", "module:n")]
  obtain ⟨told', hload'⟩ := ofValue_fileOfModules [(1, "m", "module:n"), (2, "n", "module:q")]
  have hos := mapM_moduleNode [(1, "m", "module:n")]
  have ho : Outline.ofValue (moduleNode (2, "n", "module:q")) = .ok _ := ofValue_leaf rfl rfl rfl
  obtain ⟨-, hresolve, hissues⟩ := keeps_of_append rfl hos ho (by decide +kernel) hload hload'
  have hfound : (run (ofOutlines "p" ([(1, "m", "module:n")].map moduleOutline)) .standard ""
      Report.empty.duration).result.toOption.map
        (fun r ↦ (r.issuesOf "links").map Issue.reflection) = some [0] := by decide +kernel
  have hfound' : (run (ofOutlines "p" ([(1, "m", "module:n"), (2, "n", "module:q")].map
      moduleOutline)) .standard "" Report.empty.duration).result.toOption.map
        (fun r ↦ (r.issuesOf "links").map Issue.reflection) = some [1] := by decide +kernel
  obtain ⟨report, hrun, hat⟩ := exists_report hfound
  obtain ⟨report', hrun', hat'⟩ := exists_report hfound'
  have honce : Plan.standard.validators.Nodup :=
    (by decide : Check.names.Nodup).map fun _ _ hname ↦ Value.str.inj hname
  obtain ⟨hsub, horder⟩ := hissues .standard "" "" _ _ report report' hrun hrun' "links"
  exact ⟨_, _, report, report', ⟨told, hload⟩, ⟨told', hload'⟩, hrun, hrun',
    hresolve _ 0 0 (by decide +kernel) (by decide +kernel), hat, hat', hsub, horder honce⟩

end Pass

end RefCheck
