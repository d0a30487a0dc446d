import RefCheck.Check.Pass
import Mathlib.Data.List.Nodup

/-!
# What a pass finds, declaration by declaration

Each check goes over the walk and tests the declarations of its kind, one after another. So what a pass finds
is put together from what each check finds at each declaration (`Check.findings`), and it comes to its end
exactly if none of these tests meets a fault (`Check.Ends`). `Pass.result_run_eq_ok_iff` says both at once of a
whole pass, with any checks, over any model.
-/

namespace RefCheck

open RefCheck.Log

/-- A test that may fail picks out those for which it holds, if it fails for none. -/
theorem Model.filterM_eq_ok_iff {test : Handle → Except Fault Bool} {hs kept : List Handle} :
    filterM test hs = .ok kept ↔ (∀ h ∈ hs, ∃ b, test h = .ok b) ∧
      kept = hs.filter fun h ↦ (test h).toOption == some true := by
  induction hs generalizing kept with
  | nil =>
    rw [filterM, Except.ok.injEq, eq_comm]
    exact (and_iff_right fun h hh ↦ (List.not_mem_nil hh).elim).symm
  | cons h hs ih =>
    rw [filterM, List.forall_mem_cons, List.filter_cons]
    cases test h with
    | error f =>
      refine iff_of_false (fun hok ↦ by cases hok) ?_
      rintro ⟨⟨⟨b, hb⟩, -⟩, -⟩
      cases hb
    | ok b =>
      have hhead : ∃ b', (Except.ok b : Except Fault Bool) = .ok b' := ⟨b, rfl⟩
      rw [and_iff_right hhead]
      cases hrest : filterM test hs with
      | error f =>
        refine iff_of_false (fun hok ↦ by cases hok) ?_
        rintro ⟨hall, -⟩
        cases hrest.symm.trans (ih.mpr ⟨hall, rfl⟩)
      | ok rest =>
        obtain ⟨hall, rfl⟩ := ih.mp hrest
        rw [and_iff_right hall, eq_comm (a := kept)]
        cases b <;> exact iff_of_eq (Except.ok.injEq _ _)

theorem toOption_beq_some_true_iff {answer : Except Fault Bool} :
    (answer.toOption == some true) = true ↔ answer = .ok true := by
  cases answer with
  | error f => exact iff_of_false Bool.false_ne_true fun hok ↦ by cases hok
  | ok b => simp [Except.toOption]

/-- The declarations of the project itself, where all of them can be told. -/
theorem Model.mem_of_ownOfKind_eq_ok {m : Model} {mask : Kind} {excluded : Excluded}
    {kept : List Handle} (hkept : m.ownOfKind mask excluded = .ok kept) {h : Handle} :
    h ∈ kept ↔ h ∈ m.walk ∧ (m.get h).kind.meets mask = true ∧ m.isOwn excluded h = .ok true := by
  obtain ⟨-, rfl⟩ := filterM_eq_ok_iff.mp hkept
  rw [List.mem_filter, ofKind, List.mem_filter, and_assoc, toOption_beq_some_true_iff]

namespace Check

variable {ix : Index} {m : Model} {excluded : Excluded}

/-! ## One check -/

/-- What a check looks at. -/
def mask : Check → Kind
  | overloads => overloadable
  | see => tagged
  | links => .all
  | fires => tagged

/-- The test of one declaration. -/
def test (c : Check) (ix : Index) (m : Model) (h : Handle) : Trace Step :=
  match c with
  | overloads => .forEach (unlabelled m h) (accuse m missingLabel)
  | see => .forEach (ownedComments m h) fun owned ↦
      .forEach (owned.2.tagsNamed seeTag) (seeTagTrace ix m owned.1)
  | links => linksOf ix m h
  | fires => .forEach (ownedComments m h) fun owned ↦
      .forEach (owned.2.tagsNamed firesTag) (firesTagTrace ix m owned.1)

/-- **A check is a test** of every declaration of the project itself that it looks at. -/
theorem runWith_eq_forOwn (c : Check) :
    c.runWith ix m excluded = forOwn m c.mask excluded (c.test ix m) := by
  cases c <;> rfl

/-- The issues of a trace, as messages and reflections. -/
def issues (t : Trace Step) : List (String × Handle) := t.steps.filterMap Step.issue?

/-- The declaration is one that the check looks at, and it belongs to the project itself. -/
def looksAt (c : Check) (m : Model) (excluded : Excluded) (h : Handle) : Bool :=
  (m.get h).kind.meets c.mask && (m.isOwn excluded h).toOption == some true

/-- What a check finds at one declaration. -/
def findings (c : Check) (ix : Index) (m : Model) (excluded : Excluded) (h : Handle) :
    List (String × Handle) :=
  if c.looksAt m excluded h then issues (c.test ix m h) else []

theorem mem_findings_iff {c : Check} {h : Handle} {f : String × Handle} :
    f ∈ c.findings ix m excluded h ↔
      (m.get h).kind.meets c.mask = true ∧ m.isOwn excluded h = .ok true ∧
        f ∈ issues (c.test ix m h) := by
  have hlooks : c.looksAt m excluded h = true ↔
      (m.get h).kind.meets c.mask = true ∧ m.isOwn excluded h = .ok true := by
    rw [looksAt, Bool.and_eq_true, toOption_beq_some_true_iff]
  rw [findings, ← and_assoc, ← hlooks]
  split
  · next hl => rw [and_iff_right hl]
  · next hl => exact iff_of_false List.not_mem_nil fun hboth ↦ hl hboth.1

/-- No fault stops a check at a declaration: whether the declaration is its own can be told, and if it is
then its test comes to an end. -/
def EndsAt (c : Check) (ix : Index) (m : Model) (excluded : Excluded) (h : Handle) : Prop :=
  (m.get h).kind.meets c.mask = true →
    ∃ own, m.isOwn excluded h = .ok own ∧ (own = true → (c.test ix m h).fault = none)

/-- No fault stops a check. -/
def Ends (c : Check) (ix : Index) (m : Model) (excluded : Excluded) : Prop :=
  ∀ h ∈ m.walk, c.EndsAt ix m excluded h

private theorem ends_iff {c : Check} : c.Ends ix m excluded ↔
    (∀ h ∈ m.ofKind c.mask, ∃ own, m.isOwn excluded h = .ok own) ∧
      ∀ h ∈ (m.ofKind c.mask).filter fun h ↦ (m.isOwn excluded h).toOption == some true,
        (c.test ix m h).fault = none := by
  simp only [Model.ofKind, List.mem_filter, and_imp, Ends, EndsAt]
  constructor
  · intro hends
    constructor
    · intro h hh hkind
      obtain ⟨own, hown, -⟩ := hends h hh hkind
      exact ⟨own, hown⟩
    · intro h hh hkind htrue
      obtain ⟨own, hown, hfault⟩ := hends h hh hkind
      exact hfault (Except.ok.inj (hown.symm.trans (toOption_beq_some_true_iff.mp htrue)))
  · rintro ⟨hsafe, hfault⟩ h hh hkind
    obtain ⟨own, hown⟩ := hsafe h hh hkind
    refine ⟨own, hown, fun htrue ↦ hfault h hh hkind ?_⟩
    rw [hown, htrue]
    rfl

/-- **A check comes to its end** exactly if it is stopped at no declaration. -/
theorem fault_runWith_eq_none_iff {c : Check} :
    (c.runWith ix m excluded).fault = none ↔ c.Ends ix m excluded := by
  rw [runWith_eq_forOwn, forOwn, ends_iff, Model.ownOfKind]
  cases hkept : Model.filterM (m.isOwn excluded) (m.ofKind c.mask) with
  | error f =>
    refine iff_of_false (Option.some_ne_none f) ?_
    rintro ⟨hsafe, -⟩
    cases hkept.symm.trans (Model.filterM_eq_ok_iff.mpr ⟨hsafe, rfl⟩)
  | ok kept =>
    obtain ⟨hsafe, rfl⟩ := Model.filterM_eq_ok_iff.mp hkept
    rw [and_iff_right hsafe]
    exact Trace.fault_forEach_eq_none_iff

/-- A check that comes to its end goes over the declarations that it looks at. -/
theorem ownOfKind_eq_ok {c : Check} (hends : c.Ends ix m excluded) :
    m.ownOfKind c.mask excluded = .ok (m.walk.filter (c.looksAt m excluded)) := by
  refine Model.filterM_eq_ok_iff.mpr ⟨(ends_iff.mp hends).1, ?_⟩
  rw [Model.ofKind, List.filter_filter]
  exact List.filter_congr fun h _ ↦ Bool.and_comm _ _

/-- At none of them it is stopped. -/
theorem fault_test_of_looksAt {c : Check} (hends : c.Ends ix m excluded) :
    ∀ h ∈ m.walk.filter (c.looksAt m excluded), (c.test ix m h).fault = none := by
  intro h hh
  obtain ⟨hwalk, hlooks⟩ := List.mem_filter.mp hh
  obtain ⟨hkind, hown⟩ := (Bool.and_eq_true _ _).mp hlooks
  exact (ends_iff.mp hends).2 h (List.mem_filter.mpr ⟨List.mem_filter.mpr ⟨hwalk, hkind⟩, hown⟩)

/-- **What a check finds** is what it finds at each declaration, in the order of the walk. -/
theorem issues_runWith {c : Check} (hends : c.Ends ix m excluded) :
    issues (c.runWith ix m excluded) = m.walk.flatMap (c.findings ix m excluded) := by
  rw [runWith_eq_forOwn, forOwn, ownOfKind_eq_ok hends, Trace.ofResult,
    Trace.forEach_eq_of_fault_eq_none (fault_test_of_looksAt hends), issues,
    List.filterMap_flatMap]
  generalize m.walk = hs
  induction hs with
  | nil => rfl
  | cons h hs ih =>
    rw [List.filter_cons, List.flatMap_cons, ← ih, findings]
    split
    · rw [List.flatMap_cons]
      rfl
    · rfl

theorem mem_issues_runWith_iff {c : Check} (hends : c.Ends ix m excluded) {i : String × Handle} :
    i ∈ issues (c.runWith ix m excluded) ↔ ∃ h ∈ m.walk, (m.get h).kind.meets c.mask = true ∧
      m.isOwn excluded h = .ok true ∧ i ∈ issues (c.test ix m h) := by
  rw [issues_runWith hends, List.mem_flatMap]
  simp only [mem_findings_iff]

end Check

/-! ## Plans -/

namespace Plan

private theorem eq_name_of_named? {v : Value} {c : Check} (h : Check.named? v = .ok (some c)) :
    v = .str c.name := by
  unfold Check.named? at h
  split at h
  · next s =>
    have hfound : Check.all.find? (fun d : Check ↦ d.name == s) = some c := Except.ok.inj h
    have hname : (c.name == s) = true := List.find?_some (p := fun d : Check ↦ d.name == s) hfound
    rw [eq_of_beq hname]
  · cases h
  · cases h
  · cases h

private theorem eq_names_of_named {vs : List Value} {found : List (Check ⊕ Value)}
    (h : named vs = .ok found) (hall : found.filterMap Sum.getRight? = []) :
    vs = (found.filterMap Sum.getLeft?).map fun c ↦ .str c.name := by
  induction vs generalizing found with
  | nil =>
    cases h
    rfl
  | cons v vs ih =>
    rw [named] at h
    obtain ⟨named?, hv, h⟩ := Fault.bind_eq_ok_iff.mp h
    cases named? with
    | none =>
      -- a value that names no check would be among the unknown ones
      obtain ⟨first, hfirst, h⟩ := Fault.bind_eq_ok_iff.mp h
      obtain ⟨rest, -, h⟩ := Fault.bind_eq_ok_iff.mp h
      cases hfirst
      cases h
      cases hall
    | some c =>
      obtain ⟨first, hfirst, h⟩ := Fault.bind_eq_ok_iff.mp h
      obtain ⟨rest, hrest, h⟩ := Fault.bind_eq_ok_iff.mp h
      cases hfirst
      cases h
      have htail := ih hrest hall
      rw [eq_name_of_named? hv]
      exact congrArg _ htail

/-- The checks of a plan are those that it names. -/
theorem validators_eq_of_checks {plan : Plan} {cs : List Check} (h : plan.checks = .ok cs) :
    plan.validators = cs.map fun c ↦ .str c.name := by
  rw [checks] at h
  obtain ⟨found, hnamed, h⟩ := Fault.bind_eq_ok_iff.mp h
  split at h
  · next hunknown =>
    cases h
    exact eq_names_of_named hnamed hunknown
  · cases h

end Plan

namespace Pass

variable {ix : Index} {m : Model} {plan : Plan}

/-! ## One check after another -/

/-- What a check of a pass finds, as issues. -/
def found (m : Model) (excluded : Excluded) (c : Check) : List Issue :=
  (m.walk.flatMap (c.findings (Index.build m) m excluded)).map fun i ↦ .found c.name i.1 i.2

theorem filterMap_stepIssue? (validator : String) (t : Trace Check.Step) :
    t.steps.filterMap (stepIssue? validator)
      = (Check.issues t).map fun i ↦ .found validator i.1 i.2 := by
  rw [Check.issues, List.map_filterMap]
  rfl

/-- The issues of a check that is not stopped are those that it finds. -/
theorem filterMap_stepIssue?_eq_found {excluded : Excluded} {c : Check}
    (hends : c.Ends (Index.build m) m excluded) :
    (c.runWith (Index.build m) m excluded).steps.filterMap (stepIssue? c.name) = found m excluded c := by
  rw [filterMap_stepIssue?, Check.issues_runWith hends]
  rfl

theorem result_runChecks_eq_ok_iff {earlier all : List Issue} {cs : List Check} :
    (runChecks (Index.build m) m plan earlier cs).result = .ok all ↔
      (∀ c ∈ cs, c.Ends (Index.build m) m plan.excluded) ∧
        all = earlier ++ cs.flatMap (found m plan.excluded) := by
  induction cs generalizing earlier with
  | nil =>
    rw [runChecks, List.flatMap_nil, List.append_nil, Except.ok.injEq, eq_comm]
    exact (and_iff_right fun c hc ↦ (List.not_mem_nil hc).elim).symm
  | cons c cs ih =>
    rw [runChecks, List.forall_mem_cons, List.flatMap_cons, ← List.append_assoc]
    dsimp only
    cases hfault : (c.runWith (Index.build m) m plan.excluded).fault with
    | some f =>
      have hnot : ¬c.Ends (Index.build m) m plan.excluded := fun hends ↦ by
        cases hfault.symm.trans (Check.fault_runWith_eq_none_iff.mpr hends)
      simp [hnot]
    | none =>
      -- the others run on top of what this check has found
      have hends := Check.fault_runWith_eq_none_iff.mp hfault
      rw [and_iff_right hends]
      dsimp only
      rw [ih, filterMap_stepIssue?_eq_found hends]

/-- **A whole pass.** It has a report exactly if its plan names checks only and none of them is stopped; then
the issues are those that the checks find, one check after another. -/
theorem result_run_eq_ok_iff {id : String} {duration : Binary64} {report : Report} :
    (run m plan id duration).result = .ok report ↔
      ∃ cs, plan.checks = .ok cs ∧ (∀ c ∈ cs, c.Ends (Index.build m) m plan.excluded) ∧
        report = ⟨plan.strict, plan.validators, cs.flatMap (found m plan.excluded), duration⟩ := by
  rw [run]
  cases hchecks : plan.checks with
  | error f => simp
  | ok cs =>
    simp only [Except.ok.injEq, exists_eq_left']
    cases hresult : (runChecks (Index.build m) m plan [] cs).result with
    | error f =>
      have hnot : ¬∀ c ∈ cs, c.Ends (Index.build m) m plan.excluded := fun hends ↦ by
        cases hresult.symm.trans (result_runChecks_eq_ok_iff.mpr ⟨hends, rfl⟩)
      simp [hnot]
    | ok all =>
      obtain ⟨hends, rfl⟩ := result_runChecks_eq_ok_iff.mp hresult
      rw [and_iff_right hends, List.nil_append]
      simp only [Except.ok.injEq, eq_comm]

theorem exists_report {id : String} {duration : Binary64} {α : Type} {f : Report → α} {a : α}
    (h : (run m plan id duration).result.toOption.map f = some a) :
    ∃ report, (run m plan id duration).result = .ok report ∧ f report = a := by
  cases hresult : (run m plan id duration).result with
  | error e =>
    rw [hresult] at h
    cases h
  | ok report =>
    rw [hresult] at h
    exact ⟨report, rfl, Option.some.inj h⟩

/-! ## One check of a report -/

theorem isText_validator_of_mem_found {excluded : Excluded} {c : Check} {i : Issue}
    (hi : i ∈ found m excluded c) (validator : String) :
    i.validator.isText validator = (c.name == validator) := by
  obtain ⟨-, -, rfl⟩ := List.mem_map.mp hi
  rfl

/-- Issues that are picked by their check are what the picked checks found. -/
theorem filter_flatMap_found (excluded : Excluded) (cs : List Check) (keep : Value → Bool) :
    (cs.flatMap (found m excluded)).filter (fun i ↦ keep i.validator)
      = (cs.filter fun c ↦ keep (.str c.name)).flatMap (found m excluded) := by
  induction cs with
  | nil => rfl
  | cons c cs ih =>
    have hc : ∀ i ∈ found m excluded c, i.validator = .str c.name := by
      intro i hi
      obtain ⟨-, -, rfl⟩ := List.mem_map.mp hi
      rfl
    rw [List.flatMap_cons, List.filter_append, ih, List.filter_cons]
    cases hkeep : keep (.str c.name) with
    | true =>
      rw [List.filter_eq_self.mpr fun i hi ↦ by rw [hc i hi, hkeep], if_pos rfl, List.flatMap_cons]
    | false =>
      rw [List.filter_eq_nil_iff.mpr fun i hi ↦ by rw [hc i hi, hkeep]; exact Bool.false_ne_true,
        List.nil_append, if_neg Bool.false_ne_true]

/-- The issues of one check in a report are what this check found, each time that it ran. -/
theorem filter_validator_flatMap_found (excluded : Excluded) (cs : List Check)
    (validator : String) :
    (cs.flatMap (found m excluded)).filter (fun i ↦ i.validator.isText validator)
      = (cs.filter fun c ↦ c.name == validator).flatMap (found m excluded) :=
  filter_flatMap_found excluded cs (Value.isText validator)

theorem Check.name_injective : Function.Injective Check.name := by
  intro c d h
  rw [← Option.some.injEq, ← Check.ofName?_name c, h, Check.ofName?_name]

/-- Of checks without repetition, each has as its issues what it found. -/
theorem filter_validator_eq_found {excluded : Excluded} {cs : List Check} (hcs : cs.Nodup)
    {c : Check} (hc : c ∈ cs) :
    (cs.flatMap (found m excluded)).filter (fun i ↦ i.validator.isText c.name) = found m excluded c := by
  have hname : ∀ d : Check, (d.name == c.name) = (d == c) := by
    intro d
    rw [Bool.eq_iff_iff, beq_iff_eq, beq_iff_eq, Check.name_injective.eq_iff]
  rw [filter_validator_flatMap_found, funext hname, List.filter_beq, List.count_eq_one_of_mem hcs hc,
    List.replicate_one, List.flatMap_singleton]

end Pass

end RefCheck
