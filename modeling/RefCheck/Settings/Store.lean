import RefCheck.Yaml.Data

/-!
# Mappings at places

While the program runs, a mapping is at a place, where it can be written to, and several others can hold it. One
mapping is laid over another by copying the lower one and writing to the copy. Only its own entries are copied: the
copy holds the same mappings as the lower one, until one of them has to be laid under another. It then gets what
comes of that, in the same way.

`Store.overlay` comes to no end where both mappings go on without end, and neither does reading one of them.
-/

namespace RefCheck.Yaml

/-- What a mapping holds under a key. -/
inductive Held where
  /-- Data other than a mapping. -/
  | data (d : Data)
  /-- The mapping at a place. -/
  | mapping (place : Nat)
  deriving Inhabited, Repr

/-- The mappings that there are, each at its place. -/
abbrev Store := List (List (Scalar × Held))

namespace Store

/-! ## Data in a store -/

mutual

/-- Gives each mapping of the data a place: the mappings that there are then, and what to hold for the data. -/
def add (s : Store) : Data → Store × Held
  | .map entries =>
    let (s', held) := addEach s entries
    (s' ++ [held], .mapping s'.length)
  | d => (s, .data d)

/-- The same for entries. -/
def addEach (s : Store) : List (Scalar × Data) → Store × List (Scalar × Held)
  | [] => (s, [])
  | (key, d) :: entries =>
    let (s', h) := add s d
    let (s'', held) := addEach s' entries
    (s'', (key, h) :: held)

end

mutual

/-- What is held, as data. -/
def read? (s : Store) : Held → Option Data
  | .data d => some d
  | .mapping place => do return .map (← s |>.readEach? (← s[place]?))
partial_fixpoint

/-- What is held under keys, as entries. -/
def readEach? (s : Store) : List (Scalar × Held) → Option (List (Scalar × Data))
  | [] => some []
  | (key, h) :: held => do return (key, ← s |>.read? h) :: (← s |>.readEach? held)
partial_fixpoint

end

/-! ## Laying over -/

/-- Puts something under a key of the mapping at a place. -/
def write (s : Store) (place : Nat) (key : Scalar) (value : Held) : Store :=
  s.modify place (Data.put key value)

mutual

/-- Lays the mapping at a place over that at another one: the mappings that there are then, and the place of the
outcome. -/
def overlay (s : Store) (base upper : Nat) : Option (Store × Nat) := do
  let own ← s[base]?
  let entries ← s[upper]?
  let s' ← s ++ [own] |>.overlayEntries s.length entries
  return (s', s.length)
partial_fixpoint

/-- Lays entries over those of the mapping at a place, one after another. -/
def overlayEntries (s : Store) (place : Nat) : List (Scalar × Held) → Option Store
  | [] => some s
  | (key, value) :: rest => do
    match Data.lookup key (← s[place]?), value with
    | some (.mapping own), .mapping upper => do
      let (s', outcome) ← s |>.overlay own upper
      s'.write place key (.mapping outcome) |>.overlayEntries place rest
    | _, value => s.write place key value |>.overlayEntries place rest
partial_fixpoint

end

end Store

end RefCheck.Yaml
