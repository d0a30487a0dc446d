import RefCheck.Proofs.Check.Carried
import RefCheck.Proofs.Model.Rearranged

/-!
# Models whose order changes

The nodes at the top level of a model file change places. Handles follow the order of the file, so they change
too, and what stays is the number of a reflection. If no number stands for two reflections and no path is that
of two modules, then each model is found again in the other (`Mirrors`), and the order is seen in one thing
only: in a report, issues about different reflections may change places.

Issues about one reflection do not. They are found at the reflection itself and at its owners, and on the way
up from it these follow one another in the same order in every walk (`filter_findings_eq`).
-/

namespace RefCheck

open RefCheck.Log RefCheck.Model

namespace Model

/-- Two models in each of which the other is found again, with the same exports. -/
structure Mirrors (σ τ : Handle → Handle) (m m' : Model) : Prop where
  forth : m.Embeds σ m'
  back : m'.Embeds τ m
  left_inv : ∀ h ∈ m.walk, τ (σ h) = h
  right_inv : ∀ h ∈ m'.walk, σ (τ h) = h
  keeps_forth : KeepsExports σ m m'
  keeps_back : KeepsExports τ m' m

namespace Mirrors

variable {m m' : Model} {σ τ : Handle → Handle} (hm : Mirrors σ τ m m')

include hm

theorem walk_perm : m'.walk.Perm (m.walk.map σ) := by
  have hnodup : (m.walk.map σ).Nodup :=
    hm.forth.closed.nodup_walk.map_on fun h hh k hk ↦ hm.forth.injOn h hh k hk
  refine (List.perm_ext_iff_of_nodup hm.back.closed.nodup_walk hnodup).mpr fun k ↦ ?_
  rw [List.mem_map]
  constructor
  · exact fun hk ↦ ⟨τ k, hm.back.mem_walk k hk, hm.right_inv k hk⟩
  · rintro ⟨h, hh, rfl⟩
    exact hm.forth.mem_walk h hh

/-- **References are mirrored**: one resolves to the image of what it resolved to, or to nothing in both. -/
theorem resolve?_image {context : Handle} (hc : context ∈ m.walk) (r : Reference) :
    (Index.build m').resolve? m' r (σ context) = ((Index.build m).resolve? m r context).map σ := by
  cases hr : (Index.build m).resolve? m r context with
  | some h => exact hm.forth.resolve?_image hm.keeps_forth hc hr
  | none =>
    cases hr' : (Index.build m').resolve? m' r (σ context) with
    | none => rfl
    | some k =>
      -- what resolves over there would resolve here
      have hback := hm.back.resolve?_image hm.keeps_back (hm.forth.mem_walk context hc) hr'
      rw [hm.left_inv context hc, hr] at hback
      cases hback

/-- What a reference names has the same number in both models. -/
theorem map_id_resolve?_image {context : Handle} (hc : context ∈ m.walk) (r : Reference) :
    ((Index.build m').resolve? m' r (σ context)).map (fun h ↦ (m'.get h).id)
      = ((Index.build m).resolve? m r context).map fun h ↦ (m.get h).id := by
  rw [hm.resolve?_image hc]
  cases hr : (Index.build m).resolve? m r context with
  | none => rfl
  | some h =>
    have hh := hm.forth.closed.mem_walk_of_resolve? hc hr
    rw [Option.map_some, Option.map_some, Option.map_some, hm.forth.id_image hh]

/-- What a check finds at an image is what it finds at the reflection. -/
theorem findings_image {h : Handle} (hh : h ∈ m.walk) (c : Check) (excluded : Excluded) :
    c.findings (Index.build m') m' excluded (σ h)
      = (c.findings (Index.build m) m excluded h).map (Check.carry σ) := by
  have hless := hm.forth.findings_image hm.keeps_forth hh c excluded
  have hmore := hm.back.findings_image hm.keeps_back (hm.forth.mem_walk h hh) c excluded
  rw [hm.left_inv h hh] at hmore
  have hlength := hmore.length_le
  rw [List.length_map] at hlength
  refine hless.eq_of_length (Nat.le_antisymm hless.length_le ?_)
  rwa [List.length_map]

theorem ends_iff (c : Check) (excluded : Excluded) :
    c.Ends (Index.build m') m' excluded ↔ c.Ends (Index.build m) m excluded := by
  constructor
  · intro hends h hh
    exact (hm.forth.endsAt_image hm.keeps_forth hh c excluded).mp
      (hends (σ h) (hm.forth.mem_walk h hh))
  · intro hends k hk
    exact (hm.back.endsAt_image hm.keeps_back hk c excluded).mp
      (hends (τ k) (hm.back.mem_walk k hk))

end Mirrors

end Model

/-- As many issues, the same status. -/
theorem Report.status_eq_of_length_eq {r r' : Report} (h : r'.issues.length = r.issues.length) :
    r'.status = r.status := by
  have hempty : r'.issues.isEmpty = r.issues.isEmpty := by
    rw [Bool.eq_iff_iff, List.isEmpty_iff_length_eq_zero, List.isEmpty_iff_length_eq_zero, h]
  rw [status, status, hempty]

namespace Pass

variable {m m' : Model} {σ τ : Handle → Handle}

/-! ## Issues about one reflection -/

/-- Items that bring nothing may be left out. -/
theorem flatMap_eq_of_sublist {α β : Type} {part all : List α} {f : α → List β}
    (hpart : part.Sublist all) (hall : all.Nodup) (hf : ∀ a ∈ all, a ∉ part → f a = []) :
    all.flatMap f = part.flatMap f := by
  induction hpart with
  | slnil => rfl
  | @cons part all a hpart ih =>
    obtain ⟨ha, hall⟩ := List.nodup_cons.mp hall
    obtain ⟨hfa, hf⟩ := List.forall_mem_cons.mp hf
    rw [List.flatMap_cons, hfa fun hin ↦ ha (hpart.subset hin), List.nil_append, ih hall hf]
  | @cons_cons part all a hpart ih =>
    obtain ⟨ha, hall⟩ := List.nodup_cons.mp hall
    rw [List.flatMap_cons, List.flatMap_cons, ih hall fun b hb hnot ↦ ?_]
    refine hf b (List.mem_cons_of_mem a hb) fun hin ↦ ?_
    rcases List.mem_cons.mp hin with rfl | hin
    · exact ha hb
    · exact hnot hin

/-- **Issues about one reflection are found on the way up from it**, from the outside in. -/
theorem filter_findings_eq (hm : m.IsTree) {k : Handle} (hk : k ∈ m.walk) (c : Check)
    (excluded : Excluded) :
    (m.walk.flatMap (c.findings (Index.build m) m excluded)).filter (fun i ↦ i.2 == k)
      = (m.enclosing k).reverse.flatMap fun h ↦
          (c.findings (Index.build m) m excluded h).filter fun i ↦ i.2 == k := by
  rw [List.filter_flatMap]
  refine flatMap_eq_of_sublist (hm.reverse_enclosing_sublist_walk hk) hm.nodup_walk fun h hh hnot ↦ ?_
  rw [List.filter_eq_nil_iff]
  intro i hi hik
  rw [List.mem_reverse] at hnot
  have heq : i.2 = k := beq_iff_eq.mp hik
  rcases Check.mem_findings hi with hself | hsignature
  · rw [← hself, heq] at hnot
    exact hnot List.mem_cons_self
  · rw [heq] at hsignature
    exact hnot (hm.mem_enclosing_of_parent hk
      (hm.parent_owned h hh k (List.mem_append_left _ hsignature)))

theorem filter_findings_image (hm : Mirrors σ τ m m') {k : Handle} (hk : k ∈ m.walk) (c : Check)
    (excluded : Excluded) :
    (m'.walk.flatMap (c.findings (Index.build m') m' excluded)).filter (fun i ↦ i.2 == σ k)
      = ((m.walk.flatMap (c.findings (Index.build m) m excluded)).filter fun i ↦ i.2 == k).map
          (Check.carry σ) := by
  have htree := hm.forth.closed.toIsTree
  rw [filter_findings_eq hm.back.closed.toIsTree (hm.forth.mem_walk k hk), filter_findings_eq htree hk,
    hm.forth.enclosing_image hk, ← List.map_reverse, List.flatMap_map, List.map_flatMap]
  refine List.flatMap_congr fun h hh ↦ ?_
  have hhw := htree.mem_walk_of_mem_enclosing hk (List.mem_reverse.mp hh)
  rw [hm.findings_image hhw]
  refine filter_map_of_forall fun i hi ↦ ?_
  -- images are told apart as their reflections are
  have hiw : i.2 ∈ m.walk := Check.mem_walk_of_mem_findings htree hhw hi
  rw [Bool.eq_iff_iff, beq_iff_eq, beq_iff_eq]
  exact ⟨hm.forth.injOn i.2 hiw k hk, fun heq ↦ congrArg σ heq⟩

/-! ## Issues by number -/

/-- The messages of issues about the reflections of a number. -/
def messagesOn (m : Model) (issues : List Issue) (n : Int) : List Value :=
  (issues.filter fun i ↦ (m.get i.reflection).id == n).map Issue.message

theorem messagesOn_flatMap {α : Type} (m : Model) (items : List α) (f : α → List Issue) (n : Int) :
    messagesOn m (items.flatMap f) n = items.flatMap fun a ↦ messagesOn m (f a) n := by
  rw [messagesOn, List.filter_flatMap, List.map_flatMap]
  rfl

/-- The messages of a check about the reflection of a number. -/
private theorem messagesOn_found (htree : m.IsTree) (hd : m.DistinctIds) {k : Handle}
    (hk : k ∈ m.walk) (c : Check) (excluded : Excluded) :
    messagesOn m (found m excluded c) (m.get k).id
      = ((m.walk.flatMap (c.findings (Index.build m) m excluded)).filter fun i ↦ i.2 == k).map
          fun i ↦ .str i.1 := by
  rw [messagesOn, found, List.filter_map, List.map_map]
  refine congrArg₂ List.map rfl (List.filter_congr fun i hi ↦ ?_)
  obtain ⟨h, hh, hi⟩ := List.mem_flatMap.mp hi
  have hiw : i.2 ∈ m.walk := Check.mem_walk_of_mem_findings htree hh hi
  rw [Function.comp_apply, Bool.eq_iff_iff, beq_iff_eq, beq_iff_eq]
  exact ⟨hd.eq_of_id_eq hiw hk, fun heq ↦ by rw [← heq]; rfl⟩

private theorem messagesOn_found_of_absent (htree : m.IsTree) {n : Int}
    (hn : ∀ k ∈ m.walk, (m.get k).id ≠ n) (c : Check) (excluded : Excluded) :
    messagesOn m (found m excluded c) n = [] := by
  rw [messagesOn, List.map_eq_nil_iff, List.filter_eq_nil_iff]
  intro i hi hid
  obtain ⟨f, hf, rfl⟩ := List.mem_map.mp hi
  obtain ⟨h, hh, hf⟩ := List.mem_flatMap.mp hf
  exact hn f.2 (Check.mem_walk_of_mem_findings htree hh hf) (beq_iff_eq.mp hid)

theorem messagesOn_found_image (hm : Mirrors σ τ m m') (hd : m.DistinctIds) (hd' : m'.DistinctIds)
    (c : Check) (excluded : Excluded) (n : Int) :
    messagesOn m' (found m' excluded c) n = messagesOn m (found m excluded c) n := by
  have htree := hm.forth.closed.toIsTree
  have htree' := hm.back.closed.toIsTree
  by_cases hn : ∃ k ∈ m.walk, (m.get k).id = n
  · obtain ⟨k, hk, rfl⟩ := hn
    have hid := hm.forth.id_image hk
    rw [messagesOn_found htree hd hk, ← hid, messagesOn_found htree' hd' (hm.forth.mem_walk k hk),
      filter_findings_image hm hk, List.map_map]
    rfl
  · have hn' : ∀ k ∈ m'.walk, (m'.get k).id ≠ n := by
      intro k hk hid
      exact hn ⟨τ k, hm.back.mem_walk k hk, (hm.back.id_image hk).trans hid⟩
    rw [messagesOn_found_of_absent htree (fun k hk hid ↦ hn ⟨k, hk, hid⟩),
      messagesOn_found_of_absent htree' hn']

theorem length_found_image (hm : Mirrors σ τ m m') (c : Check) (excluded : Excluded) :
    (found m' excluded c).length = (found m excluded c).length := by
  have hsame : (m.walk.map σ).flatMap (c.findings (Index.build m') m' excluded)
      = (m.walk.flatMap (c.findings (Index.build m) m excluded)).map (Check.carry σ) := by
    rw [List.flatMap_map, List.map_flatMap]
    exact List.flatMap_congr fun h hh ↦ hm.findings_image hh c excluded
  rw [found, found, List.length_map, List.length_map, (hm.walk_perm.flatMap_right _).length_eq, hsame,
    List.length_map]

/-- A pass over the other model comes to its end too, and says the same of each reflection. -/
theorem exists_run_image (hm : Mirrors σ τ m m') (hd : m.DistinctIds) (hd' : m'.DistinctIds)
    {plan : Plan} {id : String} {duration : Binary64} {report : Report}
    (hrun : (run m plan id duration).result = .ok report) (id' : String) (duration' : Binary64) :
    ∃ report', (run m' plan id' duration').result = .ok report' ∧ report'.status = report.status ∧
      report'.issues.length = report.issues.length ∧ ∀ validator n,
        messagesOn m' (report'.issuesOf validator) n = messagesOn m (report.issuesOf validator) n := by
  obtain ⟨cs, hcs, hends, rfl⟩ := result_run_eq_ok_iff.mp hrun
  have hends' : ∀ c ∈ cs, c.Ends (Index.build m') m' plan.excluded :=
    fun c hc ↦ (hm.ends_iff c plan.excluded).mpr (hends c hc)
  have hlength : (cs.flatMap (found m' plan.excluded)).length
      = (cs.flatMap (found m plan.excluded)).length := by
    rw [List.length_flatMap, List.length_flatMap]
    exact congrArg List.sum (List.map_congr_left fun c _ ↦ length_found_image hm c plan.excluded)
  refine ⟨_, result_run_eq_ok_iff.mpr ⟨cs, hcs, hends', rfl⟩, ?_, hlength, fun validator n ↦ ?_⟩
  · exact Report.status_eq_of_length_eq hlength
  · rw [Report.issuesOf, Report.issuesOf, filter_validator_flatMap_found,
      filter_validator_flatMap_found, messagesOn_flatMap, messagesOn_flatMap]
    exact List.flatMap_congr fun c _ ↦ messagesOn_found_image hm hd hd' c plan.excluded n

/-! ## Files -/

/-- Models of files whose nodes changed places mirror each other, if numbers and paths tell reflections and
modules apart. -/
theorem mirrors_of_perm {name name' : String} {os os' : List Outline} (hperm : os.Perm os')
    (hids : (Outline.ids os).Nodup) (hpaths : (ofOutlines name os).DistinctPaths) :
    Mirrors (counterpart (ofOutlines name os) (ofOutlines name' os'))
      (counterpart (ofOutlines name' os') (ofOutlines name os)) (ofOutlines name os)
      (ofOutlines name' os') := by
  have hids' : (Outline.ids os').Nodup := (Outline.ids_perm hperm).nodup hids
  have hforth : (ofOutlines name os).Embeds _ (ofOutlines name' os') := embeds_perm hperm hids
  have hback : (ofOutlines name' os').Embeds _ (ofOutlines name os) :=
    embeds_perm hperm.symm hids'
  have hpaths' := hback.distinctPaths hpaths
  refine ⟨hforth, hback, ?_, ?_, hforth.keepsExports_of_distinctPaths hpaths hpaths',
    hback.keepsExports_of_distinctPaths hpaths' hpaths⟩
  · exact fun h hh ↦ counterpart_eq (distinctIds_ofOutlines.mpr hids) hh (hforth.id_image hh).symm
  · exact fun h hh ↦ counterpart_eq (distinctIds_ofOutlines.mpr hids') hh (hback.id_image hh).symm

/-- **The order of modules does not matter.** The nodes at the top level of a file change places; no number
stands for two reflections of its model, and no path is that of two modules. Then the new file loads too, and
from the reflections of a number every reference names reflections of one number, or nothing, in both models.
If a pass over the old model comes to its end then so does one over the new model; both have the same status
and as many issues, and each check has the same messages about the reflection of a number, in the same order. -/
theorem same_of_perm {data : Value} {nodes nodes' : List Value} {told : List Event}
    (hnodes : topNodes data = .ok nodes) (hperm : nodes.Perm nodes')
    (hload : Model.ofValue data = ⟨told, .ok m⟩) (hids : m.DistinctIds) (hpaths : m.DistinctPaths) :
    ∃ told' m', Model.ofValue (withTopNodes data nodes') = ⟨told', .ok m'⟩ ∧
      (m'.walk.map fun h ↦ (m'.get h).id).Perm (m.walk.map fun h ↦ (m.get h).id) ∧
      (∀ (r : Reference) (context context' : Handle), context ∈ m.walk → context' ∈ m'.walk →
        (m'.get context').id = (m.get context).id →
          ((Index.build m').resolve? m' r context').map (fun h ↦ (m'.get h).id)
            = ((Index.build m).resolve? m r context).map fun h ↦ (m.get h).id) ∧
      ∀ (plan : Plan) (id id' : String) (duration duration' : Binary64) (report : Report),
        (run m plan id duration).result = .ok report →
          ∃ report', (run m' plan id' duration').result = .ok report' ∧
            report'.status = report.status ∧ report'.issues.length = report.issues.length ∧
            ∀ (validator : String) (n : Int), messagesOn m' (report'.issuesOf validator) n
              = messagesOn m (report.issuesOf validator) n := by
  obtain ⟨name, os, hname, htop, hlinks, rfl⟩ := ofValue_eq_ok_iff.mp ⟨told, hload⟩
  have hdistinct : (Outline.ids os).Nodup := distinctIds_ofOutlines.mp hids
  rw [topLevel_eq hnodes] at htop
  obtain ⟨os', hos', hos⟩ := exists_mapM_of_perm hperm htop
  have hids' : (ofOutlines name os').DistinctIds :=
    distinctIds_ofOutlines.mpr ((Outline.ids_perm hos).nodup hdistinct)
  have hm := @mirrors_of_perm name name os os' hos hdistinct hpaths
  obtain ⟨told', hload'⟩ := ofValue_eq_ok_iff.mpr ⟨name, os',
    (projectName_withTopNodes data nodes').trans hname,
    (topLevel_withTopNodes hnodes).trans hos', links_perm hos hdistinct hlinks, rfl⟩
  refine ⟨told', ofOutlines name os', hload', ?_, ?_, ?_⟩
  · rw [map_id_walk, map_id_walk]
    exact (Outline.ids_perm hos).symm
  · intro r context context' hc hc' hid
    have himage : context' = counterpart (ofOutlines name os) (ofOutlines name os') context :=
      (counterpart_eq hids' hc' hid).symm
    rw [himage]
    exact hm.map_id_resolve?_image hc r
  · intro plan id id' duration duration' report hrun
    exact exists_run_image hm hids hids' hrun id' duration'

/-- The model of two modules, the first of which links to the second. -/
def twoModules : Model :=
  ofOutlines "p" ([(1, "m", "module:n"), (2, "n", "module:q")].map moduleOutline)

/-- The model of the same modules in the other order. -/
def twoModulesSwapped : Model :=
  ofOutlines "p" ([(2, "n", "module:q"), (1, "m", "module:n")].map moduleOutline)

/-- Two modules that change places: a link from the first to the second resolves to the same module, and the
link of the second, which leads nowhere, is told of in the same words. -/
theorem same_of_perm_twoModules :
    (∃ told, Model.ofValue (fileOfModules [(1, "m", "module:n"), (2, "n", "module:q")])
          = ⟨told, .ok twoModules⟩) ∧
      (∃ told, Model.ofValue (fileOfModules [(2, "n", "module:q"), (1, "m", "module:n")])
          = ⟨told, .ok twoModulesSwapped⟩) ∧
      twoModules.DistinctIds ∧ twoModules.DistinctPaths ∧
      ((Index.build twoModulesSwapped).resolve? twoModulesSwapped
            ⟨"module:n", some ["n"], none, none, .none, none⟩ 1).map
          (fun h ↦ (twoModulesSwapped.get h).id) = some 2 ∧
      ∃ report report', (run twoModules .standard "" Report.empty.duration).result = .ok report ∧
        (run twoModulesSwapped .standard "" Report.empty.duration).result = .ok report' ∧
        report'.status = report.status ∧ report'.issues.length = report.issues.length ∧
        messagesOn twoModulesSwapped (report'.issuesOf "links") 2
          = [.str (Check.linkMessage "module:q")] := by
  obtain ⟨told, hload⟩ := ofValue_fileOfModules [(1, "m", "module:n"), (2, "n", "module:q")]
  obtain ⟨told', hload'⟩ := ofValue_fileOfModules [(2, "n", "module:q"), (1, "m", "module:n")]
  have hids : twoModules.DistinctIds := by
    unfold DistinctIds
    decide +kernel
  have hpaths : twoModules.DistinctPaths := by
    unfold DistinctPaths
    decide +kernel
  have hfound : (run twoModules .standard "" Report.empty.duration).result.toOption.map
      (fun r ↦ (messagesOn twoModules (r.issuesOf "links") 2).map Value.text?)
        = some [some (Check.linkMessage "module:q")] := by decide +kernel
  obtain ⟨told'', m', hload'', -, hresolve, hsame⟩ := same_of_perm rfl
    (List.Perm.swap (moduleNode (2, "n", "module:q")) (moduleNode (1, "m", "module:n")) []) hload
    hids hpaths
  -- the new model is the one that the file in its new order has
  cases hload''.symm.trans hload'
  have hcontext : 0 ∈ twoModules.walk := by decide +kernel
  have hcontext' : 1 ∈ twoModulesSwapped.walk := by decide +kernel
  have hid : (twoModulesSwapped.get 1).id = (twoModules.get 0).id := by decide +kernel
  have hnamed : ((Index.build twoModules).resolve? twoModules
      ⟨"module:n", some ["n"], none, none, .none, none⟩ 0).map (fun h ↦ (twoModules.get h).id)
        = some 2 := by decide +kernel
  obtain ⟨report, hrun, htexts⟩ := exists_report hfound
  obtain ⟨report', hrun', hstatus, hlength, hmessages⟩ := hsame .standard "" "" _ _ report hrun
  have htold : messagesOn twoModules (report.issuesOf "links") 2
      = [.str (Check.linkMessage "module:q")] := by
    obtain ⟨message, hone, htext⟩ := List.map_eq_singleton_iff.mp htexts
    rw [hone]
    cases message <;> cases htext
    rfl
  exact ⟨⟨told, hload⟩, ⟨told', hload'⟩, hids, hpaths,
    (hresolve _ 0 1 hcontext hcontext' hid).trans hnamed, report, report', hrun, hrun', hstatus,
    hlength, (hmessages "links" 2).trans htold⟩

end Pass

end RefCheck
