import RefCheck.Proofs.Check.Decides

/-!
# What issues are for

An issue has a message and a declaration that it accuses. `Check.Accuses` says of each check what there has to
be for an issue of it: a signature without a label, or a text in a comment that reads as a reference and names
nothing. Every issue that the test of a declaration finds is of this form (`accuses_of_mem_issues_test`), so it
is about the declaration itself or one of its signatures, and where a text is mentioned, the message says which.

Only `accuse` makes issues, and it first makes sure that the place of the accused can be told. So whoever is
accused is not lost.
-/

namespace RefCheck.Check

open RefCheck.Log

variable {α : Type} {ix : Index} {m : Model} {h owner : Handle}
  {i : String × Handle}

/-! ## The issues of a trace -/

theorem mem_issues_forEach {items : List α} {f : α → Trace Step}
    (hi : i ∈ issues (.forEach items f)) : ∃ x ∈ items, i ∈ issues (f x) := by
  obtain ⟨s, hs, hissue⟩ := List.mem_filterMap.mp hi
  obtain ⟨x, hx, hs⟩ := Trace.mem_steps_forEach hs
  exact ⟨x, hx, List.mem_filterMap.mpr ⟨s, hs, hissue⟩⟩

/-- Where nothing stops, all the issues are there. -/
theorem mem_issues_forEach_of_fault_eq_none {items : List α} {f : α → Trace Step}
    (hfault : (Trace.forEach items f).fault = none) {x : α} (hx : x ∈ items)
    (hi : i ∈ issues (f x)) : i ∈ issues (.forEach items f) := by
  rw [Trace.forEach_eq_of_fault_eq_none (Trace.fault_forEach_eq_none_iff.mp hfault), issues,
    List.filterMap_flatMap]
  exact List.mem_flatMap.mpr ⟨x, hx, hi⟩

theorem mem_issues_ofResult {result : Except Fault α} {next : α → Trace Step}
    (hi : i ∈ issues (.ofResult result next)) : ∃ x, result = .ok x ∧ i ∈ issues (next x) := by
  obtain ⟨s, hs, hissue⟩ := List.mem_filterMap.mp hi
  obtain ⟨x, hx, hs⟩ := Trace.mem_steps_ofResult hs
  exact ⟨x, hx, List.mem_filterMap.mpr ⟨s, hs, hissue⟩⟩

theorem issues_notes (events : List Event) : issues (.ofList (events.map .note)) = [] := by
  rw [issues, List.filterMap_eq_nil_iff]
  intro s hs
  obtain ⟨e, -, rfl⟩ := List.mem_map.mp hs
  rfl

/-- A trace with nothing but notes before it has the issues that it had. -/
theorem issues_notes_andThen (events : List Event) (t : Trace Step) :
    issues ((Trace.ofList (events.map .note)).andThen t) = issues t := by
  have hnotes := issues_notes events
  rw [issues] at hnotes
  rw [Trace.andThen_of_fault_eq_none rfl, issues, List.filterMap_append, hnotes, List.nil_append]
  rfl

/-! ## One mention -/

theorem mem_issues_accuse {message : String} :
    i ∈ issues (accuse m message owner) ↔ m.isLost owner = false ∧ i = (message, owner) := by
  rw [accuse]
  cases m.isLost owner with
  | true => exact iff_of_false List.not_mem_nil fun hboth ↦ by cases hboth.1
  | false => exact List.mem_singleton.trans (and_iff_right rfl).symm

theorem mem_issues_expectTarget {r : Reference} {message : String} :
    i ∈ issues (expectTarget ix m r owner message) ↔
      ix.resolve? m r owner = none ∧ m.isLost owner = false ∧ i = (message, owner) := by
  rw [expectTarget, issues_notes_andThen]
  cases ix.resolve? m r owner with
  | none => exact mem_issues_accuse.trans (and_iff_right rfl).symm
  | some k => exact iff_of_false List.not_mem_nil fun hboth ↦ by cases hboth.1

/-- **The issue of a mention**: there is one if the text reads as a reference that names nothing. -/
theorem mem_issues_expectMention {message : String → String} {text : String} :
    i ∈ issues (expectMention ix m owner message text) ↔
      ∃ r, Reference.parse? text = some r ∧ ix.resolve? m r owner = none ∧
        m.isLost owner = false ∧ i = (message r.raw, owner) := by
  rw [expectMention]
  cases hread : Reference.parse? text with
  | none =>
    refine iff_of_false List.not_mem_nil ?_
    rintro ⟨r, hsome, -⟩
    cases hsome
  | some r => simp only [mem_issues_expectTarget, Option.some.injEq, exists_eq_left']

/-- **The issue of a `@fires` tag**: there is one if the tag mentions a reference, but no event that exists. -/
theorem mem_issues_firesTagTrace {t : BlockTag} :
    i ∈ issues (firesTagTrace ix m owner t) ↔
      ∃ text r, t.firedEvent? = some text ∧ Reference.parse? text = some r ∧
        (r.marker = .event → ix.resolve? m r owner = none) ∧
        m.isLost owner = false ∧ i = (eventMessage r.raw, owner) := by
  rw [firesTagTrace]
  cases hfired : t.firedEvent? with
  | none =>
    refine iff_of_false List.not_mem_nil ?_
    rintro ⟨text, r, hsome, -⟩
    cases hsome
  | some text =>
    rw [Option.bind_some]
    cases hread : Reference.parse? text with
    | none =>
      refine iff_of_false List.not_mem_nil ?_
      rintro ⟨text', r, htext, hr, -⟩
      cases htext
      cases hread.symm.trans hr
    | some r =>
      simp only [Option.some.injEq, exists_and_left, exists_eq_left', hread]
      split
      · next hevent => rw [mem_issues_expectTarget, imp_iff_right hevent]
      · next hevent => simp only [mem_issues_accuse, hevent, false_imp_iff, true_and]

/-! ## What stops a mention -/

theorem fault_accuse_eq_none_iff {message : String} :
    (accuse m message owner).fault = none ↔ m.isLost owner = false := by
  rw [accuse]
  cases m.isLost owner with
  | true => exact iff_of_false (Option.some_ne_none _) fun hlost ↦ by cases hlost
  | false => exact iff_of_true rfl rfl

theorem fault_expectTarget_eq_none_iff {r : Reference} {message : String} :
    (expectTarget ix m r owner message).fault = none ↔
      (ix.resolve? m r owner = none → m.isLost owner = false) := by
  rw [expectTarget, Trace.andThen_of_fault_eq_none rfl]
  cases ix.resolve? m r owner with
  | none => exact fault_accuse_eq_none_iff.trans (imp_iff_right rfl).symm
  | some k => exact iff_of_true rfl fun hnone ↦ by cases hnone

/-- What a mention asks for is a place to tell, and only if it has an issue. -/
theorem fault_expectMention_eq_none_iff {message : String → String} {text : String} :
    (expectMention ix m owner message text).fault = none ↔
      ∀ r, Reference.parse? text = some r → ix.resolve? m r owner = none →
        m.isLost owner = false := by
  rw [expectMention]
  cases hread : Reference.parse? text with
  | none => exact iff_of_true rfl fun _ hsome ↦ by cases hsome
  | some r => simp only [fault_expectTarget_eq_none_iff, Option.some.injEq, forall_eq']

theorem fault_firesTagTrace_eq_none_iff {t : BlockTag} :
    (firesTagTrace ix m owner t).fault = none ↔
      ∀ text, t.firedEvent? = some text → ∀ r, Reference.parse? text = some r →
        (r.marker = .event → ix.resolve? m r owner = none) → m.isLost owner = false := by
  rw [firesTagTrace]
  cases hfired : t.firedEvent? with
  | none => exact iff_of_true rfl fun _ hsome ↦ by cases hsome
  | some text =>
    rw [Option.bind_some]
    simp only [Option.some.injEq, forall_eq']
    cases hread : Reference.parse? text with
    | none => exact iff_of_true rfl fun _ hsome ↦ by cases hsome
    | some r =>
      simp only [Option.some.injEq, forall_eq']
      split
      · next hevent => rw [fault_expectTarget_eq_none_iff, imp_iff_right hevent]
      · next hevent => simp only [fault_accuse_eq_none_iff, hevent, false_imp_iff, true_imp_iff]

/-! ## Checks -/

/-- A text reads as a reference that names nothing from the declaration that an issue accuses, and the message
says so. -/
def NamesNothing (ix : Index) (m : Model) (message : String → String) (text : String)
    (i : String × Handle) : Prop :=
  ∃ r, Reference.parse? text = some r ∧ ix.resolve? m r i.2 = none ∧ i.1 = message r.raw

/-- What there is at a declaration that an issue of a check is for. -/
def Accuses (ix : Index) (m : Model) (h : Handle) (i : String × Handle) : Check → Prop
  | overloads => i.1 = missingLabel ∧ i.2 ∈ unlabelled m h
  | see => ∃ c, m.Carries h i.2 c ∧ ∃ t ∈ c.tagsNamed seeTag, ∃ text, t.Mentions text ∧
      NamesNothing ix m seeMessage text i
  | links => i.2 = h ∧ ∃ c, (m.get h).comment = some c ∧ ∃ p ∈ c.parts, p.IsLink ∧
      NamesNothing ix m linkMessage (linkTarget p.text) i
  | fires => ∃ c, m.Carries h i.2 c ∧ ∃ t ∈ c.tagsNamed firesTag, ∃ text r,
      t.firedEvent? = some text ∧ Reference.parse? text = some r ∧
        (r.marker = .event → ix.resolve? m r i.2 = none) ∧ i.1 = eventMessage r.raw

/-- An issue of several mentions is for one of them. -/
theorem namesNothing_of_mem_issues {result : Except Fault (List String)}
    {message : String → String}
    (hi : i ∈ issues (.ofResult result fun texts ↦
      .forEach texts (expectMention ix m owner message))) :
    i.2 = owner ∧ m.isLost owner = false ∧
      ∃ texts, result = .ok texts ∧ ∃ text ∈ texts, NamesNothing ix m message text i := by
  obtain ⟨texts, htexts, hi⟩ := mem_issues_ofResult hi
  obtain ⟨text, htext, hi⟩ := mem_issues_forEach hi
  obtain ⟨r, hread, hnone, hlost, rfl⟩ := mem_issues_expectMention.mp hi
  exact ⟨rfl, hlost, texts, htexts, text, htext, r, hread, hnone, rfl⟩

/-- **Every issue is for something.** What the test of a declaration finds is accused for what there is, and
the place of the accused can be told. -/
theorem accuses_of_mem_issues_test {c : Check} (hi : i ∈ issues (c.test ix m h)) :
    c.Accuses ix m h i ∧ m.isLost i.2 = false := by
  cases c with
  | overloads =>
    obtain ⟨s, hs, hi⟩ := mem_issues_forEach hi
    obtain ⟨hlost, rfl⟩ := mem_issues_accuse.mp hi
    exact ⟨⟨rfl, hs⟩, hlost⟩
  | see =>
    obtain ⟨⟨owner, c⟩, howned, hi⟩ := mem_issues_forEach hi
    obtain ⟨t, ht, hi⟩ := mem_issues_forEach hi
    obtain ⟨rfl, hlost, texts, htexts, text, htext, hnames⟩ := namesNothing_of_mem_issues hi
    exact ⟨⟨c, mem_ownedComments.mp howned, t, ht, text,
      (BlockTag.mem_seeTargets htexts).mp htext, hnames⟩, hlost⟩
  | links =>
    rw [test, linksOf] at hi
    split at hi
    · cases hi
    · next c hc =>
      obtain ⟨rfl, hlost, texts, htexts, text, htext, hnames⟩ := namesNothing_of_mem_issues hi
      obtain ⟨p, hp, hlink, rfl⟩ := (Comment.mem_linkTargets htexts).mp htext
      exact ⟨⟨rfl, c, hc, p, hp, hlink, hnames⟩, hlost⟩
  | fires =>
    obtain ⟨⟨owner, c⟩, howned, hi⟩ := mem_issues_forEach hi
    obtain ⟨t, ht, hi⟩ := mem_issues_forEach hi
    obtain ⟨text, r, hfired, hread, hnone, hlost, rfl⟩ := mem_issues_firesTagTrace.mp hi
    exact ⟨⟨c, mem_ownedComments.mp howned, t, ht, text, r, hfired, hread, hnone, rfl⟩, hlost⟩

/-- The accused is the declaration that is tested or one of its signatures. -/
theorem Accuses.owner_eq_or {c : Check} (hi : c.Accuses ix m h i) :
    i.2 = h ∨ i.2 ∈ (m.get h).signatures := by
  cases c with
  | overloads =>
    exact .inr (mem_unlabelled.mp hi.2).2.1
  | see =>
    obtain ⟨c, hcarries, -⟩ := hi
    exact hcarries.1
  | links => exact .inl hi.1
  | fires =>
    obtain ⟨c, hcarries, -⟩ := hi
    exact hcarries.1

end RefCheck.Check

namespace RefCheck.Pass

variable {m : Model} {plan : Plan} {id : String} {duration : Binary64} {report : Report}

/-! ## The issues of a report -/

/-- The checks that a plan names are those that run. -/
private theorem mem_checks_iff {cs : List Check} (hcs : plan.checks = .ok cs) {c : Check} :
    c ∈ cs ↔ .str c.name ∈ plan.validators := by
  rw [Plan.validators_eq_of_checks hcs, List.mem_map]
  constructor
  · exact fun hc ↦ ⟨c, hc, rfl⟩
  · rintro ⟨d, hd, hname⟩
    rwa [← Check.name_injective (Value.str.inj hname)]

/-- **The issues of a report** are those that the tests of its checks find at the declarations of the project
itself. -/
theorem mem_issues_iff (hrun : (run m plan id duration).result = .ok report) {i : Issue} :
    i ∈ report.issues ↔ ∃ c : Check, .str c.name ∈ plan.validators ∧ ∃ h ∈ m.walk,
      (m.get h).kind.meets c.mask = true ∧ m.isOwn plan.excluded h = .ok true ∧
        ∃ f ∈ Check.issues (c.test (Index.build m) m h), i = .found c.name f.1 f.2 := by
  obtain ⟨cs, hcs, -, rfl⟩ := result_run_eq_ok_iff.mp hrun
  simp only [List.mem_flatMap, found, List.mem_map, Check.mem_findings_iff, mem_checks_iff hcs]
  constructor
  · rintro ⟨c, hc, f, ⟨h, hh, hmeets, hown, hf⟩, rfl⟩
    exact ⟨c, hc, h, hh, hmeets, hown, f, hf, rfl⟩
  · rintro ⟨c, hc, h, hh, hmeets, hown, f, hf, rfl⟩
    exact ⟨c, hc, f, ⟨h, hh, hmeets, hown, hf⟩, rfl⟩

/-- Where there is a report, no test was stopped. -/
theorem fault_test_eq_none (hrun : (run m plan id duration).result = .ok report) {c : Check}
    (hc : .str c.name ∈ plan.validators) {h : Handle} (hh : h ∈ m.walk)
    (hmeets : (m.get h).kind.meets c.mask = true) (hown : m.isOwn plan.excluded h = .ok true) :
    (c.test (Index.build m) m h).fault = none := by
  obtain ⟨cs, hcs, hends, -⟩ := result_run_eq_ok_iff.mp hrun
  obtain ⟨own, hself, hfault⟩ := hends c ((mem_checks_iff hcs).mpr hc) h hh hmeets
  rw [hown] at hself
  cases hself
  exact hfault rfl

end RefCheck.Pass
