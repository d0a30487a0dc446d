import RefCheck.Check.Report
import RefCheck.Data.Access
import RefCheck.Log.Logged

/-!
# Passes

A pass runs checks over one model, with one index for all of them, and collects their issues. The log
tells each issue when it is found, at a level that depends on whether the pass is strict, and then what
the check and the pass came to. A name that no check has is refused before anything is done, so that no
pass has started then.
-/

namespace RefCheck

open RefCheck.Log

/-- What a pass is asked to do. -/
structure Plan where
  /-- Whether any issue makes the pass fail. -/
  strict : Value
  /-- What names the checks, in the order in which they run. -/
  validators : List Value
  /-- The segments of paths whose declarations are left out. -/
  excluded : Excluded

namespace Plan

/-- Every check, without strictness, over all but dependencies. -/
def standard : Plan := ⟨.bool false, Check.names.map .str, .ok defaultExcluded⟩

/-- The name that a plan has for what makes a pass strict. -/
def strictName : String := "strict"

/-- The name that a plan has for its checks. -/
def validatorsName : String := "validators"

/-- The name that a plan has for the segments that are left out. -/
def excludedName : String := "excluded_paths"

/-- The segments that the items of a value name; what is no text names none. -/
def excludedOf (v : Value) : Excluded := do return (← v.items).filterMap Value.text?

/-- The plan with these fields, each as it is given; what is not given is as in the standard plan. -/
def ofFields (fields : List (String × Value)) : Except Fault Plan := do
  let validators ← match fields.lookup validatorsName with
    | some v => v.items
    | none => .ok standard.validators
  return { strict := (fields.lookup strictName).getD standard.strict
           validators
           excluded := ((fields.lookup excludedName).map excludedOf).getD standard.excluded }

/-- Each check of a plan, or the value that names none. -/
def named : List Value → Except Fault (List (Check ⊕ Value))
  | [] => .ok []
  | v :: vs => do
    let first ← match ← Check.named? v with
      | some c => pure (.inl c)
      | none => pure (.inr v)
    return first :: (← named vs)

/-- The checks of a plan, all of which have to be there. -/
def checks (p : Plan) : Except Fault (List Check) := do
  let found ← named p.validators
  match found.filterMap Sum.getRight? with
  | [] => return found.filterMap Sum.getLeft?
  | unknown => .error (.problem (.unexpected (.str "unknown validators")
      [("validators", .arr unknown)]))

end Plan

namespace Pass

/-- The event that tells an issue. -/
def issueEvent (m : Model) (strict : Bool) (i : Issue) : Event :=
  ⟨if strict then .error else .warning, .str (i.text m), [("validator", i.validator)], none⟩

/-- The event that tells the end of a check. -/
def checkEvent (validator : String) (count : Nat) : Event :=
  .debug "validator_finished" [("validator", .str validator), ("issues", .nat count)]

/-- The event that tells the end of a pass. -/
def passEvent (id : String) (r : Report) : Event :=
  .info "validation_finished"
    [("run_id", .str id), ("status", .str r.status), ("issues", .nat r.issues.length),
      ("strict", r.strict)]

/-- What a log tells of a step of a check. -/
def stepEvent (m : Model) (strict : Bool) (validator : String) : Check.Step → Event
  | .issue message reflection => issueEvent m strict (.found validator message reflection)
  | .note event => event

/-- The issue of a step. -/
def stepIssue? (validator : String) (s : Check.Step) : Option Issue :=
  s.issue?.map fun i => .found validator i.1 i.2

/-- Runs checks one after another; `found` holds the issues so far. -/
def runChecks (ix : Index) (m : Model) (plan : Plan) (found : List Issue) :
    List Check → Logged (List Issue)
  | [] => ⟨[], .ok found⟩
  | c :: rest =>
    let trace := c.runWith ix m plan.excluded
    let told := trace.steps.map (stepEvent m plan.strict.truthy c.name)
    match trace.fault with
    | some f => ⟨told, .error f⟩
    | none =>
      let found := found ++ trace.steps.filterMap (stepIssue? c.name)
      let count := (found.filter fun i => i.validator.isText c.name).length
      let next := runChecks ix m plan found rest
      ⟨told ++ checkEvent c.name count :: next.events, next.result⟩

/-- What a pass does to a log, whatever comes of it: it starts, it tells of its index and its checks, and in any
case it ends. -/
def actsOf (id : String) (events : List Event) : List Act :=
  .startPass (.str id) :: events.map .tell ++ [.endPass]

/-- Runs a pass over a model. The identifier tells its events from those of other passes; `duration` is
how long it took. The end of the pass is told when it is no longer running. -/
def run (m : Model) (plan : Plan) (id : String) (duration : Binary64) : Recorded Report :=
  match plan.checks with
  | .error f => ⟨[], .error f⟩
  | .ok toRun =>
    let ix := Index.build m
    let checks := runChecks ix m plan [] toRun
    let acts := actsOf id (ix.event :: checks.events)
    match checks.result with
    | .error f => ⟨acts, .error f⟩
    | .ok issues =>
      let report : Report := ⟨plan.strict, plan.validators, issues, duration⟩
      ⟨acts ++ [.tell (passEvent id report)], .ok report⟩

end Pass

end RefCheck
