import RefCheck.Number.Binary64

/-!
# Values

The data of a model file and of a settings file: what JSON can write down. Whole numbers and floating
point numbers are different values, and the fields of an object keep the order in which they were given.

`Value.depth` measures how deeply a value nests. It is what recursion over nested values ends by, since a
field of an object is never as deep as the object.
-/

namespace RefCheck

/-- A value of JSON. -/
inductive Value where
  /-- No value. -/
  | null
  /-- A truth value. -/
  | bool (b : Bool)
  /-- A whole number. -/
  | int (n : Int)
  /-- A floating point number. -/
  | float (x : Binary64)
  /-- A text. -/
  | str (s : String)
  /-- An array. -/
  | arr (items : List Value)
  /-- An object: its fields, in order. -/
  | obj (fields : List (String × Value))
  deriving Inhabited, Repr, BEq

namespace Value

/-- The field of an object. -/
def get? (key : String) : Value → Option Value
  | obj fields => fields.lookup key
  | _ => none

/-- The text, if the value is one. -/
def text? : Value → Option String
  | str s => some s
  | _ => none

/-- The value is this text. -/
def isText (s : String) : Value → Bool
  | str t => t == s
  | _ => false

/-- The value is an object. -/
def isObject : Value → Bool
  | obj _ => true
  | _ => false

/-- The value counts as true where a condition asks for it: it is neither absent, nor zero, nor
empty. -/
def truthy : Value → Bool
  | null => false
  | bool b => b
  | int n => n != 0
  | float x => !x.isZero
  | str s => s != ""
  | arr items => !items.isEmpty
  | obj fields => !fields.isEmpty

/-- A text, or the absence of one. -/
def ofText? : Option String → Value
  | some s => str s
  | none => null

/-- A whole number that is a natural number. -/
def nat (n : Nat) : Value := int n

/-- The fields with one of them set: in its place if it is there, at the end if not. -/
def setField (key : String) (value : Value) : List (String × Value) → List (String × Value)
  | [] => [(key, value)]
  | (k, v) :: fields =>
    if k = key then (k, value) :: fields else (k, v) :: setField key value fields

/-! ## Depth -/

mutual

/-- How deeply arrays and objects nest in the value. -/
def depth : Value → Nat
  | arr items => itemsDepth items + 1
  | obj fields => fieldsDepth fields + 1
  | _ => 0

/-- The greatest depth of an item. -/
def itemsDepth : List Value → Nat
  | [] => 0
  | v :: vs => max v.depth (itemsDepth vs)

/-- The greatest depth of a field. -/
def fieldsDepth : List (String × Value) → Nat
  | [] => 0
  | (_, v) :: fields => max v.depth (fieldsDepth fields)

end

theorem depth_le_itemsDepth {v : Value} {items : List Value} (h : v ∈ items) :
    v.depth ≤ itemsDepth items := by
  induction items with
  | nil => cases h
  | cons w ws ih =>
    simp only [itemsDepth]
    rcases List.mem_cons.1 h with rfl | h
    · omega
    · have := ih h
      omega

theorem depth_le_fieldsDepth {key : String} {v : Value} {fields : List (String × Value)}
    (h : fields.lookup key = some v) : v.depth ≤ fieldsDepth fields := by
  induction fields with
  | nil => simp at h
  | cons field fields ih =>
    obtain ⟨k, w⟩ := field
    simp only [List.lookup_cons] at h
    simp only [fieldsDepth]
    split at h
    · cases h
      omega
    · have := ih h
      omega

/-- A field of an object nests less deeply than the object. -/
theorem depth_lt_of_get? {key : String} {v w : Value} (h : v.get? key = some w) :
    w.depth < v.depth := by
  cases v with
  | obj fields =>
    have := depth_le_fieldsDepth h
    simp only [depth]
    omega
  | _ => simp [get?] at h

end Value

end RefCheck
