import Mathlib.Algebra.GroupWithZero.Nat
import RefCheck.Log.Journal
import RefCheck.Proofs.Check.Findings

/-!
# What the log tells of a pass

A log is told of every issue when it is found, of the end of each check, of the end of the pass, and in between
of what the index and the resolving of references come to. `Pass.tells_report` says that the report can be read
off it: what is told as a warning or as an error are the issues in their order, the end of a check stands behind all
of its issues and before those of the next, and the numbers told with it add up to the number told last.

The number of a check is counted among *all* issues so far, by the name of the check. That it is the number of the
issues between the end of the check before and its own holds since a pass with distinct names runs no check twice.
-/

namespace RefCheck

open RefCheck.Log

variable {ix : Index} {m : Model} {excluded : Excluded}

/-! ## What acts write -/

namespace Log.Journal

/-- Since the journal `j` these events were written, each as one of the pass that it belongs to. -/
def IsToldOf (j' j : Journal) (time : String) (es : List Event) : Prop :=
  j'.written = j.written ++ es.flatMap fun e ↦
    linesOf j.logger j.least j.channels time { e with pass := j.least.bind fun _ ↦ e.pass }

/-- **The events of acts are what is written.** Which pass they belong to is settled by the acts alone, from that
on which is running before. -/
theorem isToldOf_actAll (j : Journal) (time : String) (acts : List Act) :
    (j.actAll time acts).IsToldOf j time (Act.eventsFrom j.pass acts) := by
  induction acts generalizing j with
  | nil => exact (List.append_nil _).symm
  | cons a acts ih =>
    cases a with
    | startPass id => exact ih (j.startPass id)
    | endPass => exact ih j.endPass
    | tell e =>
      have htold : (j.actAll time (.tell e :: acts)).written = _ := ih (j.tell time e)
      rw [IsToldOf, htold, Act.eventsFrom, List.flatMap_cons, ← List.append_assoc]
      rfl

end Log.Journal

/-! ## What is told besides issues -/

namespace Check

/-- The log of a trace holds nothing besides issues than that a type was asked for outside any module. -/
def OnlyNotes (t : Trace Step) : Prop :=
  ∀ e, Step.note e ∈ t.steps → e.level = .debug ∧ e.text = .str "no_enclosing_module"

theorem onlyNotes_nothing : OnlyNotes .nothing := fun _ h ↦ (List.not_mem_nil h).elim

theorem OnlyNotes.andThen {a b : Trace Step} (ha : OnlyNotes a) (hb : OnlyNotes b) :
    OnlyNotes (a.andThen b) :=
  fun e he ↦ (Trace.mem_steps_andThen he).elim (ha e) (hb e)

theorem OnlyNotes.forEach {α : Type} {items : List α} {f : α → Trace Step}
    (h : ∀ a ∈ items, OnlyNotes (f a)) : OnlyNotes (.forEach items f) := by
  intro e he
  obtain ⟨a, ha, he⟩ := Trace.mem_steps_forEach he
  exact h a ha e he

theorem OnlyNotes.ofResult {α : Type} {result : Except Fault α} {next : α → Trace Step}
    (h : ∀ a, OnlyNotes (next a)) : OnlyNotes (.ofResult result next) := by
  intro e he
  obtain ⟨a, -, he⟩ := Trace.mem_steps_ofResult he
  exact h a e he

theorem onlyNotes_accuse (message : String) (h : Handle) : OnlyNotes (accuse m message h) := by
  intro e he
  rw [accuse] at he
  split at he
  · cases he
  · cases List.mem_singleton.mp he

theorem onlyNotes_expectTarget (r : Reference) (owner : Handle) (message : String) :
    OnlyNotes (expectTarget ix m r owner message) := by
  rw [expectTarget]
  apply OnlyNotes.andThen
  · intro e he
    obtain ⟨note, hnote, heq⟩ := List.mem_map.mp he
    cases heq
    rw [Index.resolveEvents] at hnote
    split at hnote
    · rw [List.mem_singleton.mp hnote]
      exact ⟨rfl, rfl⟩
    · cases hnote
  · split
    · exact onlyNotes_accuse message owner
    · exact onlyNotes_nothing

theorem onlyNotes_expectMention (owner : Handle) (message : String → String) (text : String) :
    OnlyNotes (expectMention ix m owner message text) := by
  rw [expectMention]
  split
  · exact onlyNotes_expectTarget _ _ _
  · exact onlyNotes_nothing

theorem onlyNotes_firesTagTrace (owner : Handle) (tag : BlockTag) :
    OnlyNotes (firesTagTrace ix m owner tag) := by
  rw [firesTagTrace]
  split
  · exact onlyNotes_nothing
  · split
    · exact onlyNotes_expectTarget _ _ _
    · exact onlyNotes_accuse _ _

theorem onlyNotes_test (c : Check) (h : Handle) : OnlyNotes (c.test ix m h) := by
  cases c with
  | overloads => exact OnlyNotes.forEach fun s _ ↦ onlyNotes_accuse _ s
  | see =>
    refine OnlyNotes.forEach fun owned _ ↦ OnlyNotes.forEach fun tag _ ↦ OnlyNotes.ofResult fun texts ↦ ?_
    exact OnlyNotes.forEach fun text _ ↦ onlyNotes_expectMention _ _ text
  | links =>
    rw [test, linksOf]
    split
    · exact onlyNotes_nothing
    · refine OnlyNotes.ofResult fun texts ↦ ?_
      exact OnlyNotes.forEach fun text _ ↦ onlyNotes_expectMention _ _ text
  | fires => exact OnlyNotes.forEach fun owned _ ↦ OnlyNotes.forEach fun tag _ ↦ onlyNotes_firesTagTrace _ tag

/-- **Of what a check tells, only its issues matter.** -/
theorem onlyNotes_runWith (c : Check) : OnlyNotes (c.runWith ix m excluded) := by
  rw [runWith_eq_forOwn, forOwn]
  exact OnlyNotes.ofResult fun hs ↦ OnlyNotes.forEach fun h _ ↦ onlyNotes_test c h

end Check

/-! ## Lines of issues -/

namespace Issue

/-- A line that tells an issue ends with a point, so it is no other text of a log. -/
theorem text_ne_of_getLast? {i : Issue} {s : String} (hs : s.toList.getLast? ≠ some '.') :
    i.text m ≠ s := by
  rintro rfl
  apply hs
  rw [text, String.toList_append, List.getLast?_append]
  rfl

end Issue

/-! ## Lines of a log -/

namespace Report

/-- How a log tells an issue of a report. -/
def issueLine (m : Model) (id : String) (r : Report) (i : Issue) : Event :=
  ⟨if r.strict.truthy then .error else .warning, .str (i.text m), [("validator", i.validator)],
    some (.str id)⟩

/-- How it tells the end of a check. -/
def checkLine (id : String) (r : Report) (name : String) : Event :=
  ⟨.debug, .str "validator_finished",
    [("validator", .str name), ("issues", .nat (r.issuesOf name).length)], some (.str id)⟩

/-- How it tells the end of the pass, which is no longer running then. -/
def passLine (id : String) (r : Report) : Event :=
  ⟨.info, .str "validation_finished", [("run_id", .str id), ("status", .str r.status),
    ("issues", .nat r.issues.length), ("strict", r.strict)], none⟩

end Report

namespace Pass

variable {plan : Plan} {id : String} {duration : Binary64}

/-! ## One check -/

/-- The event tells an issue. -/
def tellsIssue (e : Event) : Bool := Level.warning.admits e.level

/-- The event tells the end of a check. -/
def tellsCheck (e : Event) : Bool := e.text.isText "validator_finished"

/-- The event tells the end of a pass. -/
def tellsPass (e : Event) : Bool := e.text.isText "validation_finished"

/-- What a log is told while a check runs. -/
def toldBy (m : Model) (plan : Plan) (c : Check) : List Event :=
  (c.runWith (Index.build m) m plan.excluded).steps.map (stepEvent m plan.strict.truthy c.name)

theorem tellsIssue_issueEvent (strict : Bool) (i : Issue) : tellsIssue (issueEvent m strict i) = true := by
  rw [tellsIssue, issueEvent]
  cases strict <;> rfl

/-- **The issues of a check** are what it tells from warnings up. -/
theorem filter_tellsIssue_toldBy {c : Check} (hends : c.Ends (Index.build m) m plan.excluded) :
    (toldBy m plan c).filter tellsIssue
      = (found m plan.excluded c).map (issueEvent m plan.strict.truthy) := by
  have hnotes : Check.OnlyNotes (c.runWith (Index.build m) m plan.excluded) := Check.onlyNotes_runWith c
  rw [← filterMap_stepIssue?_eq_found hends, toldBy]
  rw [Check.OnlyNotes] at hnotes
  generalize (c.runWith (Index.build m) m plan.excluded).steps = steps at hnotes ⊢
  induction steps with
  | nil => rfl
  | cons step steps ih =>
    have hrest := ih fun e he ↦ hnotes e (List.mem_cons_of_mem _ he)
    rw [List.map_cons]
    cases step with
    | issue message reflection =>
      rw [stepEvent, List.filter_cons_of_pos (tellsIssue_issueEvent _ _), hrest]
      rfl
    | note e =>
      have hquiet : ¬tellsIssue e = true := by
        rw [tellsIssue, (hnotes e List.mem_cons_self).1]
        exact Bool.false_ne_true
      rw [stepEvent, List.filter_cons_of_neg hquiet, hrest]
      rfl

/-- While a check runs, the end of none is told. -/
theorem text_of_mem_toldBy {c : Check} {s : String} (hs : s.toList.getLast? ≠ some '.')
    (hnote : s ≠ "no_enclosing_module") {e : Event} (he : e ∈ toldBy m plan c) :
    e.text.isText s = false := by
  obtain ⟨step, hstep, rfl⟩ := List.mem_map.mp he
  cases step with
  | issue message reflection =>
    exact beq_eq_false_iff_ne.mpr (Issue.text_ne_of_getLast? hs)
  | note e =>
    rw [stepEvent, (Check.onlyNotes_runWith c e hstep).2]
    exact beq_eq_false_iff_ne.mpr hnote.symm

/-! ## One check after another -/

/-- What a pass tells of a check: all that it does, then that it has come to its end, with the number of its
issues. -/
def block (m : Model) (plan : Plan) (c : Check) : List Event :=
  toldBy m plan c ++ [checkEvent c.name (found m plan.excluded c).length]

/-- **Each check is told on its own**, as long as none runs twice. -/
theorem events_runChecks {cs : List Check} {earlier : List Issue} (hdistinct : cs.Nodup)
    (hends : ∀ c ∈ cs, c.Ends (Index.build m) m plan.excluded)
    (hearlier : ∀ c ∈ cs, ∀ i ∈ earlier, i.validator.isText c.name = false) :
    (runChecks (Index.build m) m plan earlier cs).events = cs.flatMap (block m plan) := by
  induction cs generalizing earlier with
  | nil => rfl
  | cons c cs ih =>
    obtain ⟨hc, hdistinct⟩ := List.nodup_cons.mp hdistinct
    obtain ⟨hend, hends⟩ := List.forall_mem_cons.mp hends
    obtain ⟨hold, hearlier⟩ := List.forall_mem_cons.mp hearlier
    have hcount : (earlier ++ found m plan.excluded c).filter (fun i ↦ i.validator.isText c.name)
        = found m plan.excluded c := by
      rw [List.filter_append, List.filter_eq_nil_iff.mpr fun i hi ↦ by rw [hold i hi]; exact Bool.false_ne_true,
        List.nil_append, List.filter_eq_self]
      intro i hi
      rw [isText_validator_of_mem_found hi, beq_self_eq_true]
    have hnext : ∀ d ∈ cs, ∀ i ∈ earlier ++ found m plan.excluded c, i.validator.isText d.name = false := by
      intro d hd i hi
      rcases List.mem_append.mp hi with hi | hi
      · exact hearlier d hd i hi
      · rw [isText_validator_of_mem_found hi, beq_eq_false_iff_ne]
        exact fun heq ↦ hc (Check.name_injective heq ▸ hd)
    rw [runChecks]
    dsimp only
    rw [Check.fault_runWith_eq_none_iff.mpr hend]
    dsimp only
    rw [filterMap_stepIssue?_eq_found hend, hcount, ih hdistinct hends hnext, List.flatMap_cons, block, List.append_assoc]
    rfl

theorem filter_tellsIssue_block {c : Check} (hends : c.Ends (Index.build m) m plan.excluded) :
    (block m plan c).filter tellsIssue
      = (found m plan.excluded c).map (issueEvent m plan.strict.truthy) := by
  rw [block, List.filter_append, filter_tellsIssue_toldBy hends]
  exact List.append_nil _

/-- What is told of a check besides notes: its issues, then its end. -/
theorem filter_tells_block {c : Check} (hends : c.Ends (Index.build m) m plan.excluded) :
    (block m plan c).filter (fun e ↦ tellsIssue e || tellsCheck e)
      = (found m plan.excluded c).map (issueEvent m plan.strict.truthy)
        ++ [checkEvent c.name (found m plan.excluded c).length] := by
  rw [block, List.filter_append, ← filter_tellsIssue_toldBy hends]
  congr 1
  apply List.filter_congr
  intro e he
  rw [tellsCheck, text_of_mem_toldBy (by decide) (by decide) he, Bool.or_false]

theorem tellsPass_of_mem_block {c : Check} {e : Event} (he : e ∈ block m plan c) :
    tellsPass e = false := by
  rcases List.mem_append.mp he with he | he
  · exact text_of_mem_toldBy (by decide) (by decide) he
  · rw [List.mem_singleton.mp he]
    exact beq_eq_false_iff_ne.mpr (by decide)

/-! ## A whole pass -/

/-- The report can be read off the events of a pass. -/
structure TellsReport (m : Model) (id : String) (names : List String) (report : Report)
    (events : List Event) : Prop where
  /-- Warnings and errors are the issues, each told once, in one line. -/
  issues : events.filter tellsIssue = report.issues.map (report.issueLine m id)
  /-- The end of each check stands behind its own issues and before those of the next one. -/
  checks : events.filter (fun e ↦ tellsIssue e || tellsCheck e) = names.flatMap fun name ↦
    (report.issuesOf name).map (report.issueLine m id) ++ [report.checkLine id name]
  /-- The numbers that are told with the ends of the checks add up. -/
  total : (names.map fun name ↦ (report.issuesOf name).length).sum = report.issues.length
  /-- The end of the pass is told last, and nowhere else; what comes before it belongs to the pass. -/
  last : ∃ before, events = before ++ [report.passLine id] ∧
    ∀ e ∈ before, tellsPass e = false ∧ e.pass = some (.str id)
  status : report.status = "dirty" ↔ 0 < report.issues.length

/-- The event as one of a pass. -/
def inPass (id : String) (e : Event) : Event := { e with pass := some (.str id) }

/-- What is told while a pass is running belongs to it. -/
theorem eventsFrom_map_tell (id : String) (es : List Event) (acts : List Act) :
    Act.eventsFrom (some (.str id)) (es.map .tell ++ acts)
      = es.map (inPass id) ++ Act.eventsFrom (some (.str id)) acts := by
  induction es with
  | nil => rfl
  | cons e es ih =>
    rw [List.map_cons, List.cons_append, Act.eventsFrom, ih]
    rfl

/-- A pass that comes to its end starts, tells of its index and of each check on its own, ends, and tells its
end. -/
theorem acts_run {cs : List Check} (hchecks : plan.checks = .ok cs) (hdistinct : cs.Nodup)
    (hends : ∀ c ∈ cs, c.Ends (Index.build m) m plan.excluded) :
    (run m plan id duration).acts
      = actsOf id ((Index.build m).event :: cs.flatMap (block m plan))
        ++ [.tell (Report.passLine id
          ⟨plan.strict, plan.validators, cs.flatMap (found m plan.excluded), duration⟩)] := by
  have hresult : (runChecks (Index.build m) m plan [] cs).result = .ok (cs.flatMap (found m plan.excluded)) :=
    result_runChecks_eq_ok_iff.mpr ⟨hends, rfl⟩
  rw [run, hchecks]
  dsimp only
  rw [hresult, events_runChecks hdistinct hends fun c _ i hi ↦ (List.not_mem_nil hi).elim]
  rfl

/-- What it tells while it is running belongs to it, and the end does not. -/
theorem events_run {cs : List Check} (hchecks : plan.checks = .ok cs) (hdistinct : cs.Nodup)
    (hends : ∀ c ∈ cs, c.Ends (Index.build m) m plan.excluded) :
    (run m plan id duration).events
      = ((Index.build m).event :: cs.flatMap (block m plan)).map (inPass id)
        ++ [Report.passLine id ⟨plan.strict, plan.validators, cs.flatMap (found m plan.excluded), duration⟩] := by
  rw [Recorded.events, acts_run hchecks hdistinct hends, actsOf, List.append_assoc, List.cons_append,
    Act.eventsFrom, eventsFrom_map_tell]
  rfl

/-- **No pass is running after one that has started**, whatever comes of it. -/
theorem pass_actAll_run {cs : List Check} (hchecks : plan.checks = .ok cs) (j : Journal) (time : String) :
    (j.actAll time (run m plan id duration).acts).pass = none := by
  have hended : ∀ events, (j.actAll time (actsOf id events)).pass = none := by
    intro events
    rw [Journal.actAll, actsOf, List.foldl_append]
    rfl
  rw [run, hchecks]
  dsimp only
  split
  · exact hended _
  · -- what is told after the end starts no other pass
    rw [Journal.actAll, List.foldl_append]
    exact hended _

/-- What is picked from the events of a pass, by what neither the index nor the end of the pass is picked by, is
picked from what is told of each check. -/
theorem filter_events_run {cs : List Check} (hchecks : plan.checks = .ok cs) (hdistinct : cs.Nodup)
    (hends : ∀ c ∈ cs, c.Ends (Index.build m) m plan.excluded) {keep : Event → Bool}
    (hkeep : ∀ e, keep (inPass id e) = keep e) (hindex : ∀ ix : Index, keep ix.event = false)
    (hlast : ∀ report : Report, keep (report.passLine id) = false) {kept : Check → List Event}
    (hblock : ∀ c ∈ cs, (block m plan c).filter keep = kept c) :
    (run m plan id duration).events.filter keep = cs.flatMap fun c ↦ (kept c).map (inPass id) := by
  have hpassed : (keep ∘ inPass id) = keep := funext hkeep
  rw [events_run hchecks hdistinct hends, List.filter_append, List.filter_map, hpassed,
    List.filter_cons_of_neg (by rw [hindex]; exact Bool.false_ne_true),
    List.filter_cons_of_neg (by rw [hlast]; exact Bool.false_ne_true), List.filter_nil, List.append_nil,
    List.filter_flatMap, List.map_flatMap]
  exact List.flatMap_congr fun c hc ↦ congrArg _ (hblock c hc)

/-- **The log tells the report.** A pass whose plan names distinct checks, and which comes to its end, tells its
report. Whatever the log was before, its events are what is written, and no pass is running afterwards. -/
theorem tells_report {names : List String} (hplan : plan.validators = names.map .str)
    (hdistinct : names.Nodup) {report : Report} (hrun : (run m plan id duration).result = .ok report) :
    TellsReport m id names report (run m plan id duration).events ∧
      ∀ (j : Journal) (time : String),
        (j.actAll time (run m plan id duration).acts).IsToldOf j time (run m plan id duration).events ∧
          (j.actAll time (run m plan id duration).acts).pass = none := by
  obtain ⟨cs, hchecks, hends, rfl⟩ := result_run_eq_ok_iff.mp hrun
  obtain rfl : names = cs.map Check.name := by
    have hnames := hplan.symm.trans (Plan.validators_eq_of_checks hchecks)
    have hinj : Function.Injective (List.map Value.str) :=
      List.map_injective_iff.mpr fun _ _ h ↦ Value.str.inj h
    apply hinj
    rw [hnames, List.map_map]
    rfl
  have hcs : cs.Nodup := hdistinct.of_map _
  have hissuesOf : ∀ c ∈ cs, Report.issuesOf
      ⟨plan.strict, plan.validators, cs.flatMap (found m plan.excluded), duration⟩ c.name
        = found m plan.excluded c :=
    fun c hc ↦ filter_validator_eq_found hcs hc
  refine ⟨⟨?issues, ?checks, ?total, ?last, ?status⟩, fun j time ↦ ?journal⟩
  case issues =>
    rw [filter_events_run hchecks hcs hends (fun _ ↦ rfl) (fun _ ↦ rfl) (fun _ ↦ rfl)
      fun c hc ↦ filter_tellsIssue_block (hends c hc), List.map_flatMap]
    simp only [List.map_map]
    rfl
  case checks =>
    have hneither : ∀ {e : Event} {s : String}, tellsIssue e = false → e.text = .str s →
        s ≠ "validator_finished" → (tellsIssue e || tellsCheck e) = false := by
      intro e s hissue htext hs
      rw [hissue, tellsCheck, htext]
      exact beq_eq_false_iff_ne.mpr hs
    rw [filter_events_run hchecks hcs hends (fun _ ↦ rfl) (fun _ ↦ hneither rfl rfl (by decide))
      (fun _ ↦ hneither rfl rfl (by decide)) fun c hc ↦ filter_tells_block (hends c hc), List.flatMap_map]
    refine List.flatMap_congr fun c hc ↦ ?_
    rw [Report.checkLine, hissuesOf c hc, List.map_append, List.map_map]
    rfl
  case total =>
    rw [List.map_map, List.length_flatMap]
    exact congrArg List.sum (List.map_congr_left fun c hc ↦ congrArg List.length (hissuesOf c hc))
  case last =>
    refine ⟨_, events_run hchecks hcs hends, fun e he ↦ ?_⟩
    obtain ⟨told, htold, rfl⟩ := List.mem_map.mp he
    refine ⟨?_, rfl⟩
    rcases List.mem_cons.mp htold with rfl | htold
    · exact beq_eq_false_iff_ne.mpr (by decide)
    · obtain ⟨c, -, hc⟩ := List.mem_flatMap.mp htold
      exact tellsPass_of_mem_block (e := told) hc
  case status =>
    rw [Report.status, List.length_pos_iff]
    split
    · next h => exact iff_of_false (by decide) (not_not_intro (List.isEmpty_iff.mp h))
    · next h => exact iff_of_true rfl fun hnil ↦ h (List.isEmpty_iff.mpr hnil)
  case journal =>
    refine ⟨?_, pass_actAll_run hchecks j time⟩
    have hwritten := j.isToldOf_actAll time (run m plan id duration).acts
    rw [Recorded.events]
    -- the pass starts before anything is told, so it does not matter which one was running
    rw [acts_run hchecks hcs hends] at hwritten ⊢
    exact hwritten

/-- A model of two classes. The comment of the first links to what is not there, twice, and that of the second
mentions it in a block tag. -/
def modelMentioning : Model :=
  ⟨"p", [0, 1], #[
    Reflection.free 1 "A" .classKind
      (some ⟨[⟨.inlineTag, "module:x", .str "@link"⟩, ⟨.inlineTag, "module:y", .str "@link"⟩], []⟩)
      [⟨"a.ts", 1, .null⟩] false,
    Reflection.free 2 "B" .classKind (some ⟨[], [⟨.str "@see", [⟨.text, "module:z", .null⟩]⟩]⟩)
      [⟨"b.ts", 2, .null⟩] false]⟩

/-- A strict pass over them that looks for links first tells two errors before the end of this check, and one more
before the end of the next. -/
theorem tells_report_mentioning :
    ["links", "see"].Nodup ∧ ∃ report : Report,
      (run modelMentioning ⟨.bool true, ["links", "see"].map .str, .ok []⟩ "1" Report.empty.duration).result
        = .ok report ∧
      (report.issuesOf "links").length = 2 ∧ (report.issuesOf "see").length = 1 ∧
      TellsReport modelMentioning "1" ["links", "see"] report
        (run modelMentioning ⟨.bool true, ["links", "see"].map .str, .ok []⟩ "1" Report.empty.duration).events := by
  have hdistinct : ["links", "see"].Nodup := by decide
  have hcounts : (run modelMentioning ⟨.bool true, ["links", "see"].map .str, .ok []⟩ "1"
      Report.empty.duration).result.toOption.map
        (fun r ↦ ((r.issuesOf "links").length, (r.issuesOf "see").length)) = some (2, 1) := by
    decide +kernel
  obtain ⟨report, hrun, hcounts⟩ := exists_report hcounts
  obtain ⟨hlinks, hsee⟩ := Prod.mk.inj hcounts
  exact ⟨hdistinct, report, hrun, hlinks, hsee, (tells_report rfl hdistinct hrun).1⟩

end Pass

end RefCheck
