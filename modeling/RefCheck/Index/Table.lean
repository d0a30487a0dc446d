/-!
# Tables

A table holds one value per key, in the order in which the keys came. A key that is there already can be
kept (`putNew`) or given a new value in its place (`put`).
-/

namespace RefCheck

/-- Values by key, in the order of the keys. -/
structure Table (κ α : Type) where
  /-- The keys and values. -/
  entries : List (κ × α)
  deriving Inhabited, Repr

namespace Table

variable {κ α : Type}

/-- The table without keys. -/
def empty : Table κ α := ⟨[]⟩

/-- The keys, in order. -/
def keys (t : Table κ α) : List κ := t.entries.map Prod.fst

/-- How many keys there are. -/
def size (t : Table κ α) : Nat := t.entries.length

variable [DecidableEq κ]

/-- The value of a key. -/
def get? (t : Table κ α) (key : κ) : Option α := t.entries.lookup key

/-- The table with a key at its end, unless it is there. -/
def putNew (t : Table κ α) (key : κ) (value : α) : Table κ α :=
  if (t.get? key).isSome then t else ⟨t.entries ++ [(key, value)]⟩

/-- The entries with a new value for a key: in its place, or at the end. -/
def putEntry (key : κ) (value : α) : List (κ × α) → List (κ × α)
  | [] => [(key, value)]
  | (k, v) :: rest => if k = key then (k, value) :: rest else (k, v) :: putEntry key value rest

/-- The table with a new value for a key. -/
def put (t : Table κ α) (key : κ) (value : α) : Table κ α := ⟨putEntry key value t.entries⟩

@[simp] theorem get?_empty (key : κ) : (empty : Table κ α).get? key = none := rfl

theorem lookup_putEntry (key k : κ) (value : α) (entries : List (κ × α)) :
    (putEntry key value entries).lookup k =
      if k = key then some value else entries.lookup k := by
  induction entries with
  | nil =>
    by_cases h : k = key
    · subst h
      simp [putEntry]
    · simp [putEntry, List.lookup_cons, beq_eq_false_iff_ne.2 h, h]
  | cons e rest ih =>
    obtain ⟨a, v⟩ := e
    by_cases ha : a = key
    · subst ha
      by_cases hk : k = a
      · subst hk
        simp [putEntry]
      · simp [putEntry, List.lookup_cons, hk, beq_eq_false_iff_ne.2 hk]
    · by_cases hk : k = a
      · subst hk
        simp [putEntry, ha]
      · simp only [putEntry, ha, if_false, List.lookup_cons, beq_eq_false_iff_ne.2 hk, ih]

/-- Putting a value changes that key only. -/
theorem get?_put (t : Table κ α) (key k : κ) (value : α) :
    (t.put key value).get? k = if k = key then some value else t.get? k :=
  lookup_putEntry key k value t.entries

/-- Putting a new key keeps every value that is there. -/
theorem get?_putNew (t : Table κ α) (key k : κ) (value : α) :
    (t.putNew key value).get? k =
      if k = key then some ((t.get? key).getD value) else t.get? k := by
  unfold putNew
  cases h : t.get? key with
  | some v =>
    simp only [Option.isSome_some, if_true, Option.getD_some]
    split
    · next hk => rw [hk, h]
    · rfl
  | none =>
    simp only [Option.isSome_none, Bool.false_eq_true, if_false, Option.getD_none]
    simp only [get?] at h ⊢
    rw [List.lookup_append]
    by_cases hk : k = key
    · subst hk
      simp [h]
    · simp [hk, List.lookup_cons, beq_eq_false_iff_ne.2 hk]

end Table

end RefCheck
