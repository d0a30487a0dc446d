import RefCheck.Fault.Field
import RefCheck.Fault.Problem

/-!
# Faults

A *fault* is any reason why an operation has no result. Next to the problems that the program reports by
itself there are faults of data that has not the shape its reader takes for granted, faults of settings,
faults of the disk, and ways through a model that never end.
-/

namespace RefCheck

/-- A way in which data has not the shape that its reader takes for granted. -/
inductive Misshape where
  /-- A field was asked of a value that has no fields. -/
  | noFields
  /-- Items were asked of a value that has none. -/
  | noItems
  /-- A value was searched that cannot be. -/
  | notSearchable
  /-- An entry was asked by name of a value that has no named entries. -/
  | noNamedEntries
  /-- An object has no entry of this name. -/
  | missingEntry (name : String)
  /-- An infinite number stands for a whole one. -/
  | infiniteNumber
  /-- An array or object was looked up in a set of names. -/
  | notAName
  /-- A path is no text. -/
  | pathNotText
  /-- A line of a log is no text. -/
  | lineNotText
  deriving DecidableEq, Repr, Inhabited

/-- Why what is written has no value, although the syntax of its file is kept. -/
inductive Unreadable where
  /-- There is no such day, time or offset. -/
  | noMoment
  /-- It is no number. -/
  | noNumber
  /-- It is no word for a truth value. -/
  | noTruth
  /-- Nothing is written where a number has to be. -/
  | nothing
  /-- It is not written like a day or a moment. -/
  | notLikeMoment
  /-- It is a mapping where a day or a moment has to be. -/
  | mappingForMoment
  /-- An escape gives a number that no character has. -/
  | noCharacter
  /-- An escape gives a number that does not even fit 32 bits with a sign. -/
  | hugeCharacter
  /-- A power of sixty is too great for a floating point number. -/
  | hugePower
  /-- A whole number has more digits than are read or written. -/
  | longNumber
  /-- It nests more deeply than is read. -/
  | tooDeep
  deriving DecidableEq, Repr, Inhabited

/-- Why nothing can be done at a path. -/
inductive DiskFlaw where
  /-- Nothing is there. -/
  | absent
  /-- Something is there already, and it is no directory. -/
  | occupied
  /-- It leads through something that is no directory. -/
  | notDirectory
  /-- It leads to a directory. -/
  | isDirectory
  /-- A name in it, or the path as a whole, is too long. -/
  | tooLong
  /-- It holds the character of number zero. -/
  | holdsNull
  deriving DecidableEq, Repr, Inhabited

/-- Why an operation has no result. -/
inductive Fault where
  /-- A failure that the program reports by itself. -/
  | problem (p : Problem)
  /-- Data of the wrong shape. -/
  | misshapen (m : Misshape)
  /-- Settings with values that they may not have; there is at least one error. -/
  | invalid (errors : List FieldError)
  /-- The home directory of an account is not known. -/
  | unknownAccount
  /-- A variable of the environment holds no JSON where JSON is read. -/
  | unreadVariable
  /-- A settings file has a key that is no text. -/
  | keyNotText
  /-- A settings file is no text in UTF-8. -/
  | notUtf8
  /-- Something is written that has no value. -/
  | unreadable (u : Unreadable)
  /-- Nothing can be done at a path. -/
  | disk (f : DiskFlaw)
  /-- A way through a model leads round in a circle. -/
  | endless
  deriving Inhabited, Repr

namespace Fault

/-- What two operations in a row give, the second gives after what the first gave. -/
theorem bind_eq_ok_iff {ε α β : Type} {x : Except ε α} {next : α → Except ε β} {b : β} :
    (x >>= next) = .ok b ↔ ∃ a, x = .ok a ∧ next a = .ok b := by
  cases x <;> simp [bind, Except.bind]

theorem toOption_eq_some_iff {ε α : Type} {x : Except ε α} {a : α} : x.toOption = some a ↔ x = .ok a := by
  cases x <;> simp [Except.toOption]

theorem map_eq_ok_iff {ε α β : Type} {x : Except ε α} {g : α → β} {b : β} :
    x.map g = .ok b ↔ ∃ a, x = .ok a ∧ g a = b := by
  cases x <;> simp [Except.map]

end Fault

/-! ## Going over a list with a step that may fail -/

section

variable {ε α β : Type} {f : α → Except ε β} {xs : List α} {ys : List β}

theorem mapM_cons_eq_ok_iff {x : α} :
    (x :: xs).mapM f = .ok ys ↔ ∃ y zs, f x = .ok y ∧ xs.mapM f = .ok zs ∧ y :: zs = ys := by
  rw [List.mapM_cons]
  cases f x with
  | error e => simp [bind, Except.bind]
  | ok y => cases xs.mapM f <;> simp [bind, Except.bind, pure, Except.pure]

/-- It comes to its end if no step fails. -/
theorem exists_mapM_eq_ok_iff : (∃ ys, xs.mapM f = .ok ys) ↔ ∀ x ∈ xs, ∃ y, f x = .ok y := by
  induction xs with
  | nil => exact iff_of_true ⟨[], rfl⟩ fun x hx ↦ (List.not_mem_nil hx).elim
  | cons x xs ih =>
    rw [List.forall_mem_cons, ← ih]
    constructor
    · rintro ⟨ys, hys⟩
      obtain ⟨y, zs, hy, hzs, -⟩ := mapM_cons_eq_ok_iff.mp hys
      exact ⟨⟨y, hy⟩, zs, hzs⟩
    · rintro ⟨⟨y, hy⟩, zs, hzs⟩
      exact ⟨y :: zs, mapM_cons_eq_ok_iff.mpr ⟨y, zs, hy, hzs, rfl⟩⟩

/-- What it gives is what its steps give. -/
theorem mem_of_mapM_eq_ok (h : xs.mapM f = .ok ys) {y : β} : y ∈ ys ↔ ∃ x ∈ xs, f x = .ok y := by
  induction xs generalizing ys with
  | nil =>
    cases h
    simp
  | cons x xs ih =>
    obtain ⟨z, zs, hz, hzs, rfl⟩ := mapM_cons_eq_ok_iff.mp h
    rw [List.mem_cons, ih hzs]
    constructor
    · rintro (rfl | ⟨x', hx', hy⟩)
      · exact ⟨x, List.mem_cons_self, hz⟩
      · exact ⟨x', List.mem_cons_of_mem x hx', hy⟩
    · rintro ⟨x', hx', hy⟩
      rcases List.mem_cons.mp hx' with rfl | hx'
      · exact .inl (Except.ok.inj (hy.symm.trans hz))
      · exact .inr ⟨x', hx', hy⟩

end

end RefCheck
