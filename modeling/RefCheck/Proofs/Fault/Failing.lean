import RefCheck.Trace

/-!
# How operations fail

Many readers can stop at several kinds of faults. `FailsWith P r` says that a result, if it is none, is a
fault of the kind `P`; `Trace.StopsWith P t` says the same of a trace. Both go through everything that readers
are made of: one operation after another, and one operation for each item of a list. What is said of a reader
then follows from what is said of the operations that it starts with.

Where it matters which fault it is, `Fault.of?` takes the fault out of a result. The same two laws then say that
the first fault is the one that is told (`Fault.of?_bind`, `Fault.of?_mapM`).
-/

namespace RefCheck

variable {α β σ : Type} {P Q : Fault → Prop}

/-- The family of the problem that a fault is, if it is one. -/
def Fault.family? : Fault → Option Family
  | .problem p => some p.family
  | _ => none

/-- A fault of data that has not the shape which its reader takes for granted. -/
def Fault.IsMisshape (f : Fault) : Prop := ∃ s, f = .misshapen s

/-- Where there is no result there is a fault of this kind. -/
def FailsWith (P : Fault → Prop) (r : Except Fault α) : Prop := ∀ f, r = .error f → P f

theorem failsWith_ok (a : α) : FailsWith P (.ok a : Except Fault α) := fun _ h ↦ by cases h

theorem failsWith_error_iff {f : Fault} : FailsWith P (.error f : Except Fault α) ↔ P f :=
  ⟨fun h ↦ h f rfl, fun h _ heq ↦ by cases heq; exact h⟩

namespace FailsWith

variable {r : Except Fault α} {next : α → Except Fault β}

theorem mono (h : FailsWith P r) (hPQ : ∀ f, P f → Q f) : FailsWith Q r := fun f hf ↦ hPQ f (h f hf)

theorem of_exists (h : ∃ a, r = .ok a) : FailsWith P r := by
  obtain ⟨a, rfl⟩ := h
  exact failsWith_ok a

/-- One operation after another. -/
theorem bind (h : FailsWith P r) (hnext : ∀ a, r = .ok a → FailsWith P (next a)) :
    FailsWith P (r >>= next) := by
  cases r with
  | error f => exact failsWith_error_iff.mpr (h f rfl)
  | ok a => exact hnext a rfl

/-- An operation for each item. -/
theorem mapM {f : α → Except Fault β} {xs : List α} (h : ∀ x ∈ xs, FailsWith P (f x)) :
    FailsWith P (xs.mapM f) := by
  induction xs with
  | nil => exact failsWith_ok []
  | cons x xs ih =>
    rw [List.forall_mem_cons] at h
    rw [List.mapM_cons]
    exact h.1.bind fun y _ ↦ (ih h.2).bind fun ys _ ↦ failsWith_ok (y :: ys)

end FailsWith

/-! ## The first fault -/

/-- The fault of a result that is none. -/
def Fault.of? : Except Fault α → Option Fault
  | .ok _ => none
  | .error f => some f

namespace Fault

variable {r : Except Fault α} {next : α → Except Fault β}

theorem of?_eq_some_iff {f : Fault} : of? r = some f ↔ r = .error f := by
  cases r with
  | ok a => exact iff_of_false (fun h ↦ by cases h) fun h ↦ by cases h
  | error g => rw [of?, Option.some.injEq, Except.error.injEq]

theorem of?_eq_none_iff : of? r = none ↔ ∃ a, r = .ok a := by
  cases r with
  | ok a => exact iff_of_true rfl ⟨a, rfl⟩
  | error f => exact iff_of_false (fun h ↦ by cases h) fun ⟨a, h⟩ ↦ by cases h

/-- Of one operation after another, the fault of the first comes first. -/
theorem of?_bind {later : Option Fault} (hnext : ∀ a, r = .ok a → of? (next a) = later) :
    of? (r >>= next) = (of? r).or later := by
  cases r with
  | ok a => exact hnext a rfl
  | error f => rfl

/-- Where the second cannot fail, all faults are those of the first. -/
theorem of?_bind_left (hnext : ∀ a, of? (next a) = none) : of? (r >>= next) = of? r :=
  (of?_bind fun a _ ↦ hnext a).trans Option.or_none

/-- An operation that has a result leaves all faults to the next. -/
theorem of?_bind_of_ok {a : α} (hr : r = .ok a) : of? (r >>= next) = of? (next a) := by
  rw [hr]
  rfl

/-- Of an operation for each item, the fault of the first item that has one. -/
theorem of?_mapM {f : α → Except Fault β} {g : α → Option Fault} {xs : List α}
    (h : ∀ x ∈ xs, of? (f x) = g x) : of? (xs.mapM f) = xs.findSome? g := by
  induction xs with
  | nil => rfl
  | cons x xs ih =>
    rw [List.forall_mem_cons] at h
    rw [List.mapM_cons, List.findSome?_cons, ← ih h.2, ← h.1]
    cases f x with
    | error e => rfl
    | ok y => cases xs.mapM f <;> rfl

end Fault

namespace Trace

/-- Where a trace stops it is at a fault of this kind. -/
def StopsWith (P : Fault → Prop) (t : Trace σ) : Prop := ∀ f, t.fault = some f → P f

theorem StopsWith.of_eq_none {t : Trace σ} (h : t.fault = none) : StopsWith P t := fun f hf ↦ by
  rw [h] at hf
  cases hf

theorem StopsWith.andThen {a b : Trace σ} (ha : StopsWith P a) (hb : StopsWith P b) :
    StopsWith P (a.andThen b) := by
  intro f hf
  unfold Trace.andThen at hf
  split at hf
  · next g hg =>
    cases hf
    exact ha f hg
  · exact hb f hf

theorem StopsWith.forEach {items : List α} {f : α → Trace σ} (h : ∀ a ∈ items, StopsWith P (f a)) :
    StopsWith P (Trace.forEach items f) := by
  induction items with
  | nil => exact .of_eq_none rfl
  | cons a rest ih =>
    rw [List.forall_mem_cons] at h
    rw [forEach_cons]
    exact h.1.andThen (ih h.2)

theorem StopsWith.ofResult {r : Except Fault α} {next : α → Trace σ} (hr : FailsWith P r)
    (hnext : ∀ a, r = .ok a → StopsWith P (next a)) : StopsWith P (Trace.ofResult r next) := by
  cases r with
  | error f =>
    intro g hg
    cases hg
    exact hr f rfl
  | ok a => exact hnext a rfl

end Trace

end RefCheck
