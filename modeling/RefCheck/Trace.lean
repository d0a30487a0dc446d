import RefCheck.Fault.Basic

/-!
# Traces

A *trace* is what an operation does, step by step, until it ends or stops at a fault. A step that was done
before the fault stays done. Traces are put one after another; after a fault nothing follows.
-/

namespace RefCheck

/-- Steps, and the fault at which they stop, if they do. -/
structure Trace (σ : Type) where
  /-- The steps that were done, in order. -/
  steps : List σ
  /-- The fault that stopped them. -/
  fault : Option Fault
  deriving Inhabited, Repr

namespace Trace

variable {σ τ α : Type}

/-- No step. -/
def nothing : Trace σ := ⟨[], none⟩

/-- One step. -/
def step (s : σ) : Trace σ := ⟨[s], none⟩

/-- Steps that end without a fault. -/
def ofList (ss : List σ) : Trace σ := ⟨ss, none⟩

/-- A fault at once. -/
def stop (f : Fault) : Trace σ := ⟨[], some f⟩

/-- One trace and then another. -/
def andThen (a b : Trace σ) : Trace σ :=
  match a.fault with
  | some f => ⟨a.steps, some f⟩
  | none => ⟨a.steps ++ b.steps, b.fault⟩

/-- The trace that a result leads to, or a stop at its fault. -/
def ofResult (r : Except Fault α) (next : α → Trace σ) : Trace σ :=
  match r with
  | .ok a => next a
  | .error f => stop f

/-- A trace for each item, one after another. -/
def forEach (items : List α) (f : α → Trace σ) : Trace σ :=
  match items with
  | [] => nothing
  | a :: rest => (f a).andThen (forEach rest f)

/-- Other steps for the same trace. -/
def map (f : σ → τ) (t : Trace σ) : Trace τ := ⟨t.steps.map f, t.fault⟩

@[simp] theorem forEach_nil (f : α → Trace σ) : forEach [] f = nothing := rfl

@[simp] theorem forEach_cons (a : α) (rest : List α) (f : α → Trace σ) :
    forEach (a :: rest) f = (f a).andThen (forEach rest f) := rfl

/-- After a trace without a fault the next one goes on. -/
theorem andThen_of_fault_eq_none {a b : Trace σ} (h : a.fault = none) :
    a.andThen b = ⟨a.steps ++ b.steps, b.fault⟩ := by
  simp [andThen, h]

/-- Both halves are free of faults exactly when the whole is. -/
theorem fault_andThen_eq_none_iff {a b : Trace σ} :
    (a.andThen b).fault = none ↔ a.fault = none ∧ b.fault = none := by
  unfold andThen
  split
  · next f h => simp [h]
  · next h => simp [h]

theorem forEach_congr {items : List α} {f g : α → Trace σ} (h : ∀ a ∈ items, f a = g a) :
    forEach items f = forEach items g := by
  induction items with
  | nil => rfl
  | cons a rest ih =>
    rw [forEach_cons, forEach_cons, h a List.mem_cons_self,
      ih fun b hb => h b (List.mem_cons_of_mem a hb)]

/-- The traces of all items are free of faults exactly when the whole is. -/
theorem fault_forEach_eq_none_iff {items : List α} {f : α → Trace σ} :
    (forEach items f).fault = none ↔ ∀ a ∈ items, (f a).fault = none := by
  induction items with
  | nil => simp [nothing]
  | cons a rest ih => rw [forEach_cons, fault_andThen_eq_none_iff, ih, List.forall_mem_cons]

/-- Where no item meets a fault, the steps are those of the items in a row. -/
theorem forEach_eq_of_fault_eq_none {items : List α} {f : α → Trace σ}
    (h : ∀ a ∈ items, (f a).fault = none) :
    forEach items f = ⟨items.flatMap fun a => (f a).steps, none⟩ := by
  induction items with
  | nil => rfl
  | cons a rest ih =>
    rw [forEach_cons, andThen_of_fault_eq_none (h a List.mem_cons_self),
      ih fun b hb => h b (List.mem_cons_of_mem a hb)]
    simp

/-! ## Where a step comes from -/

theorem mem_steps_andThen {a b : Trace σ} {s : σ} (hs : s ∈ (a.andThen b).steps) :
    s ∈ a.steps ∨ s ∈ b.steps := by
  rw [andThen] at hs
  split at hs
  · exact .inl hs
  · exact List.mem_append.1 hs

theorem mem_steps_forEach {items : List α} {f : α → Trace σ} {s : σ}
    (hs : s ∈ (forEach items f).steps) : ∃ a ∈ items, s ∈ (f a).steps := by
  induction items with
  | nil => cases hs
  | cons a rest ih =>
    rw [forEach_cons] at hs
    rcases mem_steps_andThen hs with hs | hs
    · exact ⟨a, List.mem_cons_self, hs⟩
    · obtain ⟨b, hb, hs⟩ := ih hs
      exact ⟨b, List.mem_cons_of_mem a hb, hs⟩

theorem mem_steps_ofResult {r : Except Fault α} {next : α → Trace σ} {s : σ}
    (hs : s ∈ (ofResult r next).steps) : ∃ a, r = .ok a ∧ s ∈ (next a).steps := by
  cases r with
  | error f => cases hs
  | ok a => exact ⟨a, rfl, hs⟩

/-! ## Other steps -/

theorem map_andThen (f : σ → τ) (a b : Trace σ) :
    (a.andThen b).map f = (a.map f).andThen (b.map f) := by
  unfold andThen
  cases h : a.fault <;> simp [map, h]

theorem map_forEach (f : σ → τ) (items : List α) (g : α → Trace σ) :
    (forEach items g).map f = forEach items fun a => (g a).map f := by
  induction items with
  | nil => rfl
  | cons a rest ih => rw [forEach_cons, map_andThen, ih, forEach_cons]

theorem map_ofResult (f : σ → τ) (r : Except Fault α) (next : α → Trace σ) :
    (ofResult r next).map f = ofResult r fun a => (next a).map f := by
  cases r <;> rfl

end Trace

end RefCheck
