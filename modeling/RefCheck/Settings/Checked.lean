import RefCheck.Fault.Basic

/-!
# Reading with all errors

Reading settings does not stop at the first value that is refused: every error is collected, in the order
of the fields. Only a fault that is no error of a value stops the reading, and then the errors before it
count for nothing.
-/

namespace RefCheck

/-- What came of reading a value. -/
inductive Checked (α : Type) where
  /-- It was read. -/
  | accepted (a : α)
  /-- There are errors. -/
  | refused (first : FieldError) (more : List FieldError)
  /-- A fault stopped the reading. -/
  | stopped (f : Fault)
  deriving Inhabited

namespace Checked

variable {α β γ : Type}

/-- A single error where the reader stands. -/
def flaw (flaw : FieldFlaw) (value : Yaml.Data) : Checked α := refused ⟨[], flaw, value⟩ []

/-- Another result. -/
def map (f : α → β) : Checked α → Checked β
  | accepted a => accepted (f a)
  | refused e es => refused e es
  | stopped f => stopped f

/-- A further test of what was read. -/
def andThen (c : Checked α) (next : α → Checked β) : Checked β :=
  match c with
  | accepted a => next a
  | refused e es => refused e es
  | stopped f => stopped f

/-- Two readings side by side: the errors of both count. -/
def zipWith (f : α → β → γ) (a : Checked α) (b : Checked β) : Checked γ :=
  match a, b with
  | stopped f, _ => stopped f
  | _, stopped f => stopped f
  | refused e es, refused f fs => refused e (es ++ f :: fs)
  | refused e es, accepted _ => refused e es
  | accepted _, refused f fs => refused f fs
  | accepted a, accepted b => accepted (f a b)

/-- The same reading seen from one step further out. -/
def under (step : Place) : Checked α → Checked α
  | refused e es => refused (e.under step) (es.map (FieldError.under step))
  | c => c

/-- Readings of items, from a position on. -/
def itemsFrom (read : β → Checked α) : Nat → List β → Checked (List α)
  | _, [] => accepted []
  | n, b :: rest => zipWith List.cons ((read b).under (.item n)) (itemsFrom read (n + 1) rest)

/-- Nothing read, with errors that there may be. -/
def ofErrors : List FieldError → Checked Unit
  | [] => accepted ()
  | e :: es => refused e es

/-- The result, or a fault that carries every error. -/
def toExcept : Checked α → Except Fault α
  | accepted a => .ok a
  | refused e es => .error (.invalid (e :: es))
  | stopped f => .error f

end Checked

end RefCheck
