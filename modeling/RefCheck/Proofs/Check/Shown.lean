import RefCheck.Proofs.Check.Findings
import RefCheck.Proofs.Data.Rewritten

/-!
# Reports that are shown as JSON

A report that is shown as JSON can be read back: what is decoded is the report as a value, with the duration
read anew. All that this asks is that the lines of the model are not too long to be read. Apart from the
duration a report consists of values that are *kept* by writing and reading.
-/

namespace RefCheck

open Json

/-- Written and read, the value stays as it is. -/
structure Value.IsKept (v : Value) (levels : Nat) : Prop where
  readable : v.IsReadable
  depth : v.depth ≤ levels
  mapFloats : ∀ f, v.mapFloats f = v

theorem Value.isKept_str (s : String) : (str s).IsKept 0 :=
  ⟨trivial, Nat.le_refl 0, fun f ↦ by rw [Value.mapFloats] <;> simp⟩

theorem Value.isKept_arr {items : List Value} {levels : Nat} (h : ∀ v ∈ items, v.IsKept levels) :
    (arr items).IsKept (levels + 1) := by
  refine ⟨itemsReadable_iff.mpr fun v hv ↦ (h v hv).readable,
    Nat.succ_le_succ (itemsDepth_le_iff.mpr fun v hv ↦ (h v hv).depth), fun f ↦ ?_⟩
  have hmap : items.map (Value.mapFloats f) = items :=
    (List.map_congr_left fun v hv ↦ (h v hv).mapFloats f).trans (List.map_id items)
  rw [Value.mapFloats, mapItems_eq_map, hmap]

/-- No line that the model tells is too long to be read. -/
def Model.HasShortLines (m : Model) : Prop :=
  ∀ (h : Handle) (s : Source), m.sourceOf? h = some s → IsShort s.line

variable {m : Model}

/-- The issue of a check is kept. -/
theorem Issue.isKept_toValue_found (hm : m.HasShortLines) (validator message : String) (h : Handle) :
    ((found validator message h).toValue m).IsKept 1 := by
  have hkeys : ["validator", "message", "reflection", "file", "line"].Nodup := by decide
  rw [toValue]
  cases hsource : m.sourceOf? h with
  | none =>
    constructor
    · exact ⟨hkeys, by simp [found, hsource, Value.ofText?, Value.FieldsReadable, Value.IsReadable]⟩
    · simp [found, hsource, Value.ofText?, Value.depth, Value.fieldsDepth]
    · simp [found, hsource, Value.ofText?, Value.mapFloats, Value.mapFields]
  | some s =>
    have hline : IsShort s.line := hm h s hsource
    constructor
    · exact ⟨hkeys, by simp [found, hsource, Value.ofText?, Value.FieldsReadable, Value.IsReadable, hline]⟩
    · simp [found, hsource, Value.ofText?, Value.depth, Value.fieldsDepth]
    · simp [found, hsource, Value.ofText?, Value.mapFloats, Value.mapFields]

namespace Report

variable {report : Report}

/-- A report of checks: it says whether the pass was strict, which checks were run, and what they found. -/
structure IsOfChecks (report : Report) : Prop where
  strict : ∃ b, report.strict = .bool b
  validatorsRun : ∃ names : List String, report.validatorsRun = names.map .str
  issues : ∀ i ∈ report.issues, ∃ validator message h, i = .found validator message h

theorem isOfChecks_of_run {plan : Plan} {strict : Bool} {id : String} {duration : Binary64}
    (hstrict : plan.strict = .bool strict) (hrun : (Pass.run m plan id duration).result = .ok report) :
    report.IsOfChecks := by
  obtain ⟨cs, hcs, -, rfl⟩ := Pass.result_run_eq_ok_iff.mp hrun
  refine ⟨⟨strict, hstrict⟩, ⟨cs.map Check.name, ?_⟩, fun i hi ↦ ?_⟩
  · rw [List.map_map]
    exact Plan.validators_eq_of_checks hcs
  · obtain ⟨c, -, hi⟩ := List.mem_flatMap.mp hi
    obtain ⟨f, -, rfl⟩ := List.mem_map.mp hi
    exact ⟨c.name, f.1, f.2, rfl⟩

/-- The report of a pass that took another time. -/
def withDuration (report : Report) (duration : Binary64) : Report := { report with duration }

/-- **A report that is shown can be read back**, with the duration read anew. -/
theorem decode_toValue (h : report.IsOfChecks) (hm : m.HasShortLines) :
    decode (indented (report.toValue m) ++ "\n").toList
      = .ok ((report.withDuration (reread report.duration)).toValue m) := by
  obtain ⟨⟨strict, hstrict⟩, ⟨names, hnames⟩, hissues⟩ := h
  -- the names of the checks and the issues are all that holds further values
  have hnamesKept : (Value.arr report.validatorsRun).IsKept 1 := by
    refine Value.isKept_arr fun v hv ↦ ?_
    rw [hnames] at hv
    obtain ⟨name, -, rfl⟩ := List.mem_map.mp hv
    exact Value.isKept_str name
  have hissuesKept : (Value.arr (report.issues.map (Issue.toValue m))).IsKept 2 := by
    refine Value.isKept_arr fun v hv ↦ ?_
    obtain ⟨i, hi, rfl⟩ := List.mem_map.mp hv
    obtain ⟨validator, message, k, rfl⟩ := hissues i hi
    exact Issue.isKept_toValue_found hm validator message k
  obtain ⟨failed, hfailed⟩ : ∃ b, report.failedValue = .bool b := by
    rw [failedValue, hstrict]
    split
    · exact ⟨_, rfl⟩
    · exact ⟨_, rfl⟩
  have hkeys : ["status", "strict", "failed", "validators_run", "duration_seconds", "issues"].Nodup := by
    decide
  have hreadable : (report.toValue m).IsReadable := by
    rw [toValue, hstrict, hfailed]
    exact ⟨hkeys, trivial, trivial, trivial, hnamesKept.readable, trivial, hissuesKept.readable, trivial⟩
  have hdepth : (report.toValue m).depth ≤ maxNesting := by
    have hnamesDepth := hnamesKept.depth
    have hissuesDepth := hissuesKept.depth
    rw [toValue, hstrict, hfailed, maxNesting]
    simp only [Value.depth, Value.fieldsDepth] at hnamesDepth hissuesDepth ⊢
    omega
  have hmap : (report.toValue m).mapFloats reread
      = (report.withDuration (reread report.duration)).toValue m := by
    have hfailed' : (report.withDuration (reread report.duration)).failedValue = .bool failed := hfailed
    have hstrict' : (report.withDuration (reread report.duration)).strict = .bool strict := hstrict
    rw [toValue, toValue, hstrict, hfailed, hstrict', hfailed']
    have hnamesMap := hnamesKept.mapFloats reread
    have hissuesMap := hissuesKept.mapFloats reread
    simp only [Value.mapFloats] at hnamesMap hissuesMap
    simp only [Value.mapFloats, Value.mapFields, hnamesMap, hissuesMap]
    rfl
  rw [decode_indented hreadable hdepth, hmap]

end Report

end RefCheck
