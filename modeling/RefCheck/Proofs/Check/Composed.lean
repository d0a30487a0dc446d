import RefCheck.Proofs.Check.Checkable
import RefCheck.Settings.Read

/-!
# Selections of checks

Settings name the checks of a pass in any order and as often as they like. The pass runs each of them once, in
the order of all checks, and what it reports is what each check reports when it is called alone, with an index of
its own, one after another. Nothing that a check does reaches the next one.

`exists_report_selected` says so of every model that can be checked, together with what follows for a report: it
is a selection from the report of all checks, the checks share its issues out among them, and strictness is seen
in nothing but whether the pass failed.
-/

namespace RefCheck

open RefCheck.Log

variable {m : Model}

namespace Check

/-- The checks that some names select, each once and in the order of all checks. -/
def selected (names : List String) : List Check := all.filter fun c ↦ names.contains c.name

theorem selected_nodup (names : List String) : (selected names).Nodup := by
  have hall : all.Nodup := by decide
  exact hall.filter _

/-- The issues that a check reports when it is called alone. -/
def reported (c : Check) (m : Model) (excluded : Excluded) : List Issue :=
  (issues (c.run m excluded)).map fun i ↦ .found c.name i.1 i.2

/-- The index of its own is told of and brings no issue. -/
theorem run_eq (c : Check) (m : Model) (excluded : Excluded) :
    ∃ notes : List Event, c.run m excluded
      = ⟨notes.map .note ++ (c.runWith (Index.build m) m excluded).steps,
          (c.runWith (Index.build m) m excluded).fault⟩ := by
  rw [run]
  cases c.usesIndex with
  | true => exact ⟨[(Index.build m).event], rfl⟩
  | false => exact ⟨[], rfl⟩

theorem fault_run (c : Check) (m : Model) (excluded : Excluded) :
    (c.run m excluded).fault = (c.runWith (Index.build m) m excluded).fault := by
  obtain ⟨notes, hrun⟩ := c.run_eq m excluded
  rw [hrun]

theorem issues_run (c : Check) (m : Model) (excluded : Excluded) :
    issues (c.run m excluded) = issues (c.runWith (Index.build m) m excluded) := by
  have hnotes : ∀ notes : List Event, (notes.map Step.note).filterMap Step.issue? = [] := by
    intro notes
    rw [List.filterMap_map, List.filterMap_eq_nil_iff]
    exact fun _ _ ↦ rfl
  obtain ⟨notes, hrun⟩ := c.run_eq m excluded
  rw [hrun, issues, issues, List.filterMap_append, hnotes, List.nil_append]

/-- A check that is called alone finds what it finds in a pass. -/
theorem reported_eq_found {c : Check} {excluded : Excluded}
    (hends : c.Ends (Index.build m) m excluded) :
    c.reported m excluded = Pass.found m excluded c := by
  rw [reported, issues_run, issues_runWith hends]
  rfl

end Check

/-! ## Settings of a pass -/

namespace Settings

/-- What is written down to ask for a pass. -/
def validationData (strict : Bool) (names excluded : List String) : Yaml.Data :=
  .map [(.str "strict", .scalar (.bool strict)), (.str "validators", .list (names.map .str)),
    (.str "excluded_paths", .list (excluded.map .str))]

/-- Texts in a list are read as they are. -/
theorem readList_map_str (texts : List String) :
    readList readText (.list (texts.map .str)) = .accepted texts := by
  have hitems : ∀ n, Checked.itemsFrom readText n (texts.map .str) = .accepted texts := by
    induction texts with
    | nil => exact fun _ ↦ rfl
    | cons text texts ih =>
      intro n
      rw [List.map_cons, Checked.itemsFrom, ih]
      rfl
  exact hitems 0

/-- Names of checks select them. -/
theorem checksNamed_eq {given : Yaml.Data} {names : List String} (h : ∀ n ∈ names, n ∈ Check.names) :
    checksNamed given names = .accepted (Check.selected names) := by
  have hknown : names.filter (fun s ↦ (Check.ofName? s).isNone) = [] := by
    rw [List.filter_eq_nil_iff]
    intro n hn
    obtain ⟨c, -, rfl⟩ := List.mem_map.mp (h n hn)
    rw [Check.ofName?_name]
    exact Bool.false_ne_true
  rw [checksNamed, hknown]
  rfl

/-- **Settings that name checks are read**: each check is kept once, in the order of all checks. -/
theorem readValidation_validationData (strict : Bool) {names : List String} (excluded : List String)
    (h : ∀ n ∈ names, n ∈ Check.names) :
    readValidation (validationData strict names excluded)
      = .accepted ⟨strict, Check.selected names, excluded⟩ := by
  have hchecks : readChecks (.list (names.map .str)) = .accepted (Check.selected names) := by
    rw [readChecks, readList_map_str]
    exact checksNamed_eq h
  have hread : readValidation (validationData strict names excluded)
      = .zipWith (fun strict rest ↦ ⟨strict, rest.1, rest.2⟩) (.accepted strict)
          (.zipWith Prod.mk ((readChecks (.list (names.map .str))).under (.field "validators"))
            ((readList readText (.list (excluded.map .str))).under (.field "excluded_paths"))) := rfl
  rw [hread, hchecks, readList_map_str]
  rfl

end Settings

namespace Pass

/-! ## Issues of a report -/

/-- An issue of a pass is one of the check that found it, and of no other. -/
theorem existsUnique_issuesOf {report : Report} {excluded : Excluded} {cs : List Check}
    (hissues : report.issues = cs.flatMap (found m excluded)) {i : Issue} (hi : i ∈ report.issues) :
    ∃! name : String, i ∈ report.issuesOf name := by
  rw [hissues] at hi
  obtain ⟨c, hc, hfound⟩ := List.mem_flatMap.mp hi
  have hname : ∀ name, i.validator.isText name = (c.name == name) :=
    isText_validator_of_mem_found hfound
  refine ⟨c.name, List.mem_filter.mpr ⟨?_, ?_⟩, fun name hmem ↦ ?_⟩
  · rwa [hissues]
  · rw [hname]
    exact beq_self_eq_true c.name
  · have htext := (List.mem_filter.mp hmem).2
    rw [hname] at htext
    exact (eq_of_beq htext).symm

theorem failed_eq_true_iff {report : Report} {strict : Bool} (h : report.strict = .bool strict) :
    report.failed = true ↔ strict = true ∧ report.issues ≠ [] := by
  rw [Report.failed, h, Bool.and_eq_true, Bool.not_eq_true', List.isEmpty_eq_false_iff]
  rfl

/-! ## Composing -/

/-- **Checks compose.** Settings name checks in any order, and as often as they like. Over a model that can be
checked, each check comes to its end when it is called alone, and so does the pass: it runs the named checks once
each, in the order of all checks, and reports what they report alone, one after another. These are the issues that
the pass with all checks reports of them. Each issue is one of exactly one check, and the issues of the checks
in a row are all of them. Strictness changes no issue; with it a pass has failed if there is one. -/
theorem exists_report_selected (hm : m.IsCheckable) {names : List String}
    (hnames : ∀ n ∈ names, n ∈ Check.names) (excluded : List String) :
    (∀ c : Check, (c.run m (.ok excluded)).fault = none) ∧
      ∀ (strict : Bool) (id : String) (duration : Binary64),
        ∃ (settings all : CheckSettings) (report full : Report),
          Settings.readValidation (Settings.validationData strict names excluded)
            = .accepted settings ∧
          Settings.readValidation (Settings.validationData strict Check.names excluded)
            = .accepted all ∧
          (run m settings.plan id duration).result = .ok report ∧
          (run m all.plan id duration).result = .ok full ∧
          report.validatorsRun = (Check.all.filter fun c ↦ names.contains c.name).map (.str ·.name) ∧
          report.issues = (Check.all.filter fun c ↦ names.contains c.name).flatMap
            (·.reported m (.ok excluded)) ∧
          report.issues = full.issues.filter (fun i ↦ names.any i.validator.isText) ∧
          (∀ i ∈ report.issues, ∃! name : String, i ∈ report.issuesOf name) ∧
          (Check.all.filter fun c ↦ names.contains c.name).flatMap (report.issuesOf ·.name)
            = report.issues ∧
          (report.failed = true ↔ strict = true ∧ report.issues ≠ []) := by
  have hreported : ∀ c : Check, c.reported m (.ok excluded) = found m (.ok excluded) c :=
    fun c ↦ Check.reported_eq_found (hm.ends c _ excluded)
  have hall : Check.selected Check.names = Check.all := by decide
  refine ⟨fun c ↦ ?_, fun strict id duration ↦ ?_⟩
  · rw [Check.fault_run]
    exact Check.fault_runWith_eq_none_iff.mpr (hm.ends c _ excluded)
  · refine ⟨_, _, _, _, Settings.readValidation_validationData strict excluded hnames,
      Settings.readValidation_validationData strict excluded fun _ hn ↦ hn,
      result_run_plan hm strict _ excluded id duration, result_run_plan hm strict _ excluded id duration,
      rfl, ?_, ?_, ?_, ?_, ?_⟩
    · exact List.flatMap_congr fun c _ ↦ (hreported c).symm
    · -- a check that finds something is one of the names exactly if it was selected
      have hkeep : ∀ c : Check,
          (names.any (Value.isText · (.str c.name))) = names.contains c.name :=
        fun c ↦ List.any_beq
      rw [hall]
      refine Eq.trans ?_ (filter_flatMap_found (.ok excluded) Check.all fun v ↦
        names.any (Value.isText · v)).symm
      rw [funext hkeep]
      rfl
    · exact fun i hi ↦ existsUnique_issuesOf rfl hi
    · exact List.flatMap_congr fun c hc ↦
        filter_validator_eq_found (Check.selected_nodup names) hc
    · exact failed_eq_true_iff rfl

/-- A module that links to what is not there, and a strict pass whose settings name the check of links twice: it
runs `see` before `links`, has the one issue of `links`, and has failed. -/
theorem exists_report_selected_links :
    Model.ofValue (fileLinking 2 "module:x~Y") = ⟨[], .ok (modelLinking .module "module:x~Y")⟩ ∧
      (modelLinking .module "module:x~Y").IsCheckable ∧
      ∃ report : Report,
        (run (modelLinking .module "module:x~Y")
          (CheckSettings.plan ⟨true, [.see, .links], defaultExcluded⟩) "" Report.empty.duration).result
            = .ok report ∧
        report.issues = (Check.see.reported (modelLinking .module "module:x~Y") (.ok defaultExcluded)) ++
          Check.links.reported (modelLinking .module "module:x~Y") (.ok defaultExcluded) ∧
        report.failed = true := by
  have hload : Model.ofValue (fileLinking 2 "module:x~Y")
      = ⟨[], .ok (modelLinking .module "module:x~Y")⟩ := ofValue_fileLinking 2 "module:x~Y"
  have hm := (Model.isTree_of_load hload).isCheckable (legible_modelLinking _ _)
  have hnames : ∀ n ∈ ["links", "see", "links"], n ∈ Check.names := by decide
  have hone : (Check.links.reported (modelLinking .module "module:x~Y")
      (.ok defaultExcluded)).length = 1 := by decide +kernel
  obtain ⟨settings, all, report, full, hsettings, -, hrun, -, -, hissues, -, -, -, hfailed⟩ :=
    (exists_report_selected hm hnames defaultExcluded).2 true "" Report.empty.duration
  have hread := Settings.readValidation_validationData true defaultExcluded hnames
  cases hread.symm.trans hsettings
  have hselected : (Check.all.filter fun c ↦ ["links", "see", "links"].contains c.name)
      = [.see, .links] := by decide
  rw [hselected, List.flatMap_cons, List.flatMap_singleton] at hissues
  refine ⟨hload, hm, report, hrun, hissues, hfailed.mpr ⟨rfl, fun hnil ↦ ?_⟩⟩
  rw [hissues, List.append_eq_nil_iff] at hnil
  rw [hnil.2] at hone
  cases hone

end Pass

end RefCheck
