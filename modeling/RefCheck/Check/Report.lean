import RefCheck.Check.Basic
import RefCheck.Data.Writer

/-!
# Reports

A report holds what a pass over a model found. It is *dirty* if there is an issue, and *failed* if it is
dirty and the pass was strict. The place of an issue is read off the model when it is shown.

How strict a pass was and which checks it ran is kept as it was given: any value that counts as true makes
a pass strict, and a pass that is not strict has failed as little as the value says. A report that is made
by hand may also hold issues with any value for their check and their message.
-/

namespace RefCheck

/-- An issue of a check. -/
structure Issue where
  /-- The name of the check. -/
  validator : Value
  /-- What is wrong. -/
  message : Value
  /-- The reflection that it is about. -/
  reflection : Handle
  deriving BEq, Repr, Inhabited

namespace Issue

/-- The issue that a check finds. -/
def found (validator message : String) (reflection : Handle) : Issue :=
  ⟨.str validator, .str message, reflection⟩

/-- File and line of the reflection, or its name if no source is known. -/
def location (m : Model) (i : Issue) : String :=
  match m.sourceOf? i.reflection with
  | some s => s.text
  | none => "<unknown>:" ++ (m.get i.reflection).name

/-- The issue in one line. -/
def text (m : Model) (i : Issue) : String := i.message.display ++ " (" ++ i.location m ++ ")."

/-- The issue as a value. -/
def toValue (m : Model) (i : Issue) : Value :=
  let source := m.sourceOf? i.reflection
  .obj [("validator", i.validator), ("message", i.message),
    ("reflection", .str (m.get i.reflection).name),
    ("file", .ofText? (source.map Source.fileName)),
    ("line", match source with
      | some s => .int s.line
      | none => .null)]

end Issue

/-- What a pass found. -/
structure Report where
  /-- Whether any issue makes the pass fail. -/
  strict : Value
  /-- The names of the checks that were run, in order. -/
  validatorsRun : List Value
  /-- The issues, in the order in which they were found. -/
  issues : List Issue
  /-- How long the pass took, in seconds. -/
  duration : Binary64
  deriving Inhabited, Repr

namespace Report

/-- A report without issues. -/
def empty : Report := ⟨.bool false, [], [], .finite false 0 Binary64.minExponent⟩

/-- Whether there is an issue. -/
def status (r : Report) : String := if r.issues.isEmpty then "clean" else "dirty"

/-- The pass was strict and there is an issue. -/
def failed (r : Report) : Bool := r.strict.truthy && !r.issues.isEmpty

/-- What a record says about failure: of a pass that is not strict, the very value that says so. -/
def failedValue (r : Report) : Value :=
  if r.strict.truthy then .bool (!r.issues.isEmpty) else r.strict

/-- The issues of one check. -/
def issuesOf (r : Report) (validator : String) : List Issue :=
  r.issues.filter fun i => i.validator.isText validator

/-- The report as a value. -/
def toValue (m : Model) (r : Report) : Value :=
  .obj [("status", .str r.status), ("strict", r.strict), ("failed", r.failedValue),
    ("validators_run", .arr r.validatorsRun), ("duration_seconds", .float r.duration),
    ("issues", .arr (r.issues.map (Issue.toValue m)))]

/-- The summary of a report in one line. -/
def summary (r : Report) : String :=
  toString r.issues.length ++ " issue(s) found by " ++
    ", ".intercalate (r.validatorsRun.map Value.display) ++ "."

theorem truthy_failedValue (r : Report) : r.failedValue.truthy = r.failed := by
  unfold failedValue failed
  split
  · next h => rw [h]; rfl
  · next h => simp [h]

end Report

end RefCheck
