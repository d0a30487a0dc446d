import RefCheck.Data.Bytes
import RefCheck.Data.Display
import RefCheck.Moment.Text
import RefCheck.Text.Digit

/-!
# The data of settings files

A settings file holds scalars, lists and mappings, and also pairs and sets. Unlike a field of JSON, an entry
of a mapping may have any scalar for its key. Two keys are the same if they are equal as numbers or name the
same instant: `1`, `1.0` and `true` are one key.

A list or mapping can stand inside itself. It then has a name, and the name stands for it where it would go
on without end. `Data.opened` gives such data with itself in place of its name, so that what it holds can be
read; where it is shown, three points stand for it inside itself.
-/

namespace RefCheck.Yaml

/-- A plain value. -/
inductive Scalar where
  /-- No value. -/
  | null
  /-- A truth value. -/
  | bool (b : Bool)
  /-- A whole number. -/
  | int (n : Int)
  /-- A floating point number. -/
  | float (x : Binary64)
  /-- A text. -/
  | str (s : String)
  /-- Bytes. -/
  | bytes (bs : List UInt8)
  /-- A day. -/
  | date (d : Date)
  /-- A moment. -/
  | moment (m : Moment)
  deriving DecidableEq, Inhabited, Repr

namespace Scalar

/-- The scalar with a text between quotation marks. -/
def quoted : Scalar → String
  | null => Value.null.quoted
  | bool b => (Value.bool b).quoted
  | int n => (Value.int n).quoted
  | float x => (Value.float x).quoted
  | str s => (Value.str s).quoted
  | bytes bs => Bytes.quoted bs
  | date d => d.quoted
  | moment m => m.quoted

/-- The scalar with a text, a day or a moment as it is. -/
def display : Scalar → String
  | str s => s
  | date d => d.text
  | moment m => m.text
  | s => s.quoted

/-- The scalar as a value; what JSON does not have is displayed. -/
def toValue : Scalar → Value
  | null => .null
  | bool b => .bool b
  | int n => .int n
  | float x => .float x
  | s => .str s.display

/-- The scalar counts as true where a condition asks for it. -/
def truthy : Scalar → Bool
  | null => false
  | bool b => b
  | int n => n != 0
  | float x => !x.isZero
  | str s => s != ""
  | bytes bs => !bs.isEmpty
  | date _ | moment _ => true

/-- The whole number that the scalar equals, if there is one. -/
def whole? : Scalar → Option Int
  | bool b => some (if b then 1 else 0)
  | int n => some n
  | float x => x.whole?
  | _ => none

/-- Two scalars are the same key. -/
def sameKey (a b : Scalar) : Bool :=
  match a, b with
  | moment m, moment n => m.same n
  | a, b =>
    match a.whole?, b.whole? with
    | some m, some n => m == n
    | none, none => a == b
    | _, _ => false

/-! ## Members of sets -/

/-- How many places there are for the members of a set: eight for up to four, then the least power of two above
twice their number. -/
def places (members : Nat) : Nat := if members ≤ 4 then 8 else Nat.pow 2 ((2 * members).log2 + 1)

/-- The place of a whole number in a set; that of `-1` is the place of `-2`. -/
def placeOf (places : Nat) (n : Int) : Nat := ((if n = -1 then -2 else n) % (places : Int)).toNat

/-- The members of a set in the order in which they are gone through: whole numbers by their places, those of
one place and all other members as they are written. -/
def inPlaces (members : List Scalar) : List Scalar :=
  match members.mapM whole? with
  | some ns =>
    let keyed := (ns.map (placeOf (places members.length))).zip members
    (keyed.mergeSort fun a b => a.1 ≤ b.1).map Prod.snd
  | none => members

/-- There is a whole number for each member. -/
theorem length_of_mapM_whole? {ns : List Int} :
    (members : List Scalar) → members.mapM whole? = some ns → ns.length = members.length
  | [], h => by simp_all
  | m :: ms, h => by
    simp only [List.mapM_cons, Option.bind_eq_bind, Option.bind_eq_some_iff, Option.pure_def,
      Option.some.injEq] at h
    obtain ⟨n, _, rest, hrest, rfl⟩ := h
    simp [length_of_mapM_whole? ms hrest]

/-- No member is lost and none is new. -/
theorem inPlaces_perm (members : List Scalar) : (inPlaces members).Perm members := by
  unfold inPlaces
  split
  · next ns h =>
    refine ((List.mergeSort_perm _ _).map Prod.snd).trans (.of_eq (List.map_snd_zip ?_))
    simp [length_of_mapM_whole? members h]
  · exact .refl members

end Scalar

/-- What a settings file holds. -/
inductive Data where
  /-- A plain value. -/
  | scalar (s : Scalar)
  /-- A list. -/
  | list (items : List Data)
  /-- A mapping: its entries, in order. -/
  | map (entries : List (Scalar × Data))
  /-- Two data that belong together. -/
  | pair (first second : Data)
  /-- A set: its members, in order. -/
  | set (members : List Scalar)
  /-- Data with a name by which it can stand inside itself. -/
  | known (name : String) (d : Data)
  /-- The data around this that has the name. -/
  | again (name : String)
  deriving Inhabited, Repr

namespace Data

/-- No value. -/
def null : Data := scalar .null

/-- A text. -/
def str (s : String) : Data := scalar (.str s)

/-- The text, if the data is one. -/
def text? : Data → Option String
  | scalar (.str s) => some s
  | _ => none

/-- The data counts as true where a condition asks for it. -/
def truthy : Data → Bool
  | scalar s => s.truthy
  | list items => !items.isEmpty
  | map entries => !entries.isEmpty
  | pair _ _ => true
  | set members => !members.isEmpty
  | known _ d => d.truthy
  | again _ => true

/-! ## Data inside itself -/

mutual

/-- The data with other data in place of a name. -/
def withName (name : String) (meant : Data) : Data → Data
  | scalar s => scalar s
  | list items => list (itemsWithName name meant items)
  | map entries => map (entriesWithName name meant entries)
  | pair first second => pair (withName name meant first) (withName name meant second)
  | set members => set members
  | known n d => known n (if n = name then d else withName name meant d)
  | again n => if n = name then meant else again n
termination_by structural d => d

/-- The same for items. -/
def itemsWithName (name : String) (meant : Data) : List Data → List Data
  | [] => []
  | d :: ds => withName name meant d :: itemsWithName name meant ds
termination_by structural ds => ds

/-- The same for entries. -/
def entriesWithName (name : String) (meant : Data) : List (Scalar × Data) → List (Scalar × Data)
  | [] => []
  | (k, d) :: entries => (k, withName name meant d) :: entriesWithName name meant entries
termination_by structural entries => entries

end

/-- The data with itself in place of its name, if it has one. -/
def opened : Data → Data
  | known name d => withName name (known name d) d
  | d => d

mutual

/-- A name stands somewhere in the data. -/
def holdsAgain : Data → Bool
  | scalar _ | set _ => false
  | list items => itemsHoldAgain items
  | map entries => entriesHoldAgain entries
  | pair first second => first.holdsAgain || second.holdsAgain
  | known _ d => d.holdsAgain
  | again _ => true

/-- A name stands in an item. -/
def itemsHoldAgain : List Data → Bool
  | [] => false
  | d :: ds => d.holdsAgain || itemsHoldAgain ds

/-- A name stands in an entry. -/
def entriesHoldAgain : List (Scalar × Data) → Bool
  | [] => false
  | (_, d) :: entries => d.holdsAgain || entriesHoldAgain entries

end

/-- The data with a name, unless no name stands in it. -/
def named (name : Option String) (d : Data) : Data :=
  match name with
  | some n => if d.holdsAgain then known n d else d
  | none => d

/-! ## Entries -/

/-- The value of a key among entries. -/
def lookup {α : Type} (key : Scalar) : List (Scalar × α) → Option α
  | [] => none
  | (k, v) :: entries => if k.sameKey key then some v else lookup key entries

/-- The entries with a value for a key: in its place if it is there, at the end if not. -/
def put {α : Type} (key : Scalar) (value : α) : List (Scalar × α) → List (Scalar × α)
  | [] => [(key, value)]
  | (k, v) :: entries =>
    if k.sameKey key then (k, value) :: entries else (k, v) :: put key value entries

/-- The value of a text as key. -/
def get? (key : String) : Data → Option Data
  | map entries => lookup (.str key) entries
  | _ => none

/-! ## Texts -/

/-- What stands for data inside itself. -/
def dots : Data → String
  | list _ => "[...]"
  | map _ => "\x7b...\x7d"
  | pair _ _ => "(...)"
  | _ => "..."

mutual

/-- The data with texts between quotation marks, inside data with names, for each of which something
stands. -/
def quotedIn (around : List (String × String)) : Data → String
  | scalar s => s.quoted
  | list items => "[" ++ Value.commaSeparated (quotedItems around items) ++ "]"
  | map entries => "\x7b" ++ Value.commaSeparated (quotedEntries around entries) ++ "\x7d"
  | pair first second => "(" ++ first.quotedIn around ++ ", " ++ second.quotedIn around ++ ")"
  | set [] => "set()"
  | set (m :: ms) => "\x7b" ++ Value.commaSeparated ((m :: ms).map Scalar.quoted) ++ "\x7d"
  | known name d => (around.lookup name).getD (d.quotedIn ((name, d.dots) :: around))
  | again name => (around.lookup name).getD ""

/-- Each item, quoted. -/
def quotedItems (around : List (String × String)) : List Data → List String
  | [] => []
  | d :: ds => d.quotedIn around :: quotedItems around ds

/-- Each entry as its key and its value, quoted. -/
def quotedEntries (around : List (String × String)) : List (Scalar × Data) → List String
  | [] => []
  | (k, d) :: entries => (k.quoted ++ ": " ++ d.quotedIn around) :: quotedEntries around entries

end

/-- The data with texts between quotation marks. -/
def quoted (d : Data) : String := d.quotedIn []

/-- The data with a text as it is. -/
def display : Data → String
  | scalar s => s.display
  | d => d.quoted

/-- The least whole number that is too long to be written. -/
def leastLong : Nat := Nat.pow 10 Text.maxDigits

/-- The scalar is a whole number that is too long to be written. -/
def isLongScalar : Scalar → Bool
  | .int n => leastLong ≤ n.natAbs
  | _ => false

mutual

/-- The data holds a whole number that is too long to be written. -/
def holdsLong : Data → Bool
  | scalar s => isLongScalar s
  | list items => itemsHoldLong items
  | map entries => entriesHoldLong entries
  | pair first second => first.holdsLong || second.holdsLong
  | set members => members.any isLongScalar
  | known _ d => d.holdsLong
  | again _ => false

/-- An item holds one. -/
def itemsHoldLong : List Data → Bool
  | [] => false
  | d :: ds => d.holdsLong || itemsHoldLong ds

/-- An entry holds one. -/
def entriesHoldLong : List (Scalar × Data) → Bool
  | [] => false
  | (k, d) :: entries => isLongScalar k || d.holdsLong || entriesHoldLong entries

end

/-! ## JSON -/

mutual

/-- The data that is equal to a value of JSON. -/
def ofValue : Value → Data
  | .null => scalar .null
  | .bool b => scalar (.bool b)
  | .int n => scalar (.int n)
  | .float x => scalar (.float x)
  | .str s => scalar (.str s)
  | .arr items => list (ofItems items)
  | .obj fields => map (ofFields fields)

/-- The items as data. -/
def ofItems : List Value → List Data
  | [] => []
  | v :: vs => ofValue v :: ofItems vs

/-- The fields as entries. -/
def ofFields : List (String × Value) → List (Scalar × Data)
  | [] => []
  | (k, v) :: fields => (.str k, ofValue v) :: ofFields fields

end

mutual

/-- The data as a value of JSON. A key that is no text is displayed, pairs and sets become arrays, and no
value stands for data inside itself. -/
def toValue : Data → Value
  | scalar s => s.toValue
  | list items => .arr (toItems items)
  | map entries => .obj (toFields entries)
  | pair first second => .arr [first.toValue, second.toValue]
  | set members => .arr (members.map Scalar.toValue)
  | known _ d => d.toValue
  | again _ => .null

/-- The items as values. -/
def toItems : List Data → List Value
  | [] => []
  | d :: ds => toValue d :: toItems ds

/-- The entries as fields. -/
def toFields : List (Scalar × Data) → List (String × Value)
  | [] => []
  | (k, d) :: entries => (k.display, toValue d) :: toFields entries

end

mutual

/-- A value of JSON comes back from its data. -/
theorem toValue_ofValue : (v : Value) → toValue (ofValue v) = v
  | .null | .bool _ | .int _ | .float _ => by simp [ofValue, toValue, Scalar.toValue]
  | .str _ => by simp [ofValue, toValue, Scalar.toValue, Scalar.display]
  | .arr items => by simp [ofValue, toValue, toItems_ofItems items]
  | .obj fields => by simp [ofValue, toValue, toFields_ofFields fields]

/-- The items of an array come back. -/
theorem toItems_ofItems : (vs : List Value) → toItems (ofItems vs) = vs
  | [] => rfl
  | v :: vs => by simp [ofItems, toItems, toValue_ofValue v, toItems_ofItems vs]

/-- The fields of an object come back. -/
theorem toFields_ofFields : (fields : List (String × Value)) → toFields (ofFields fields) = fields
  | [] => rfl
  | (k, v) :: fields => by
    simp [ofFields, toFields, toValue_ofValue v, toFields_ofFields fields, Scalar.display]

end

end Data

end RefCheck.Yaml
