import RefCheck.Yaml.Node
import RefCheck.Yaml.Scalar

/-!
# What settings files mean

A node means data by its tag. Of entries with the same key the last counts, and a list or mapping is no key.
An entry whose key is the sign of a merge has a mapping or a list of them for its value; their entries come
before all others of the mapping, so each of the others counts more, and of several mappings the first
counts most. The sign of a value is, as a key, a text.

A node can be meant inside itself. Where it is a value, the data then stands inside itself; it is no key, and
a merge of it into itself adds nothing. Merged into another mapping, its entries still hold the node itself.

What is wrong with nodes is told in an order of its own: all nodes of a level come before those below them,
and a scalar counts to the level of what holds it. A scalar alone is a level too.
-/

namespace RefCheck.Yaml

namespace Node

/-! ## Names -/

mutual

/-- The node with another one in place of a name. -/
def withName (name : String) (meant : Node) : Node → Node
  | sameAs n => if n = name then meant else sameAs n
  | scalar a t text => scalar a t text
  | list a t items => list a t (itemsWithName name meant items)
  | map a t entries => map a t (entriesWithName name meant entries)
termination_by structural n => n

/-- The same for items. -/
def itemsWithName (name : String) (meant : Node) : List Node → List Node
  | [] => []
  | n :: ns => withName name meant n :: itemsWithName name meant ns
termination_by structural ns => ns

/-- The same for entries. -/
def entriesWithName (name : String) (meant : Node) : List (Node × Node) → List (Node × Node)
  | [] => []
  | (k, v) :: entries =>
    (withName name meant k, withName name meant v) :: entriesWithName name meant entries
termination_by structural entries => entries

end

/-- The nodes that have names. -/
abbrev Named := List (String × Node)

/-- The nodes with one more, if it has a name, which then stands for it in the others too. -/
def Named.with (named : Named) (anchor : Option String) (n : Node) : Named :=
  match anchor with
  | some name => (name, n) :: named.map fun e => (e.1, withName name n e.2)
  | none => named

/-- The tag of a node. -/
def tag : Node → Tag
  | sameAs _ => .other
  | scalar _ t _ | list _ t _ | map _ t _ => t

/-- The node is a name alone. -/
def isSameAs (name : String) : Node → Bool
  | sameAs n => n == name
  | _ => false

/-- An entry of the mapping of a name, unless it merges nothing but that mapping into itself. -/
def withoutOwnMerge (name : String) (entry : Node × Node) : Option (Node × Node) :=
  if entry.1.tag = .merge then
    match entry.2 with
    | list a t items => some (entry.1, list a t (items.filter fun n => !n.isSameAs name))
    | v => if v.isSameAs name then none else some entry
  else some entry

/-- Entries of a mapping that may have a name. -/
def ownEntries (anchor : Option String) (entries : List (Node × Node)) : List (Node × Node) :=
  match anchor with
  | some name => entries.filterMap (withoutOwnMerge name)
  | none => entries

mutual

/-- The node with what is meant by names in their place, and the nodes that have names since. The names of
nodes around it stay. -/
def linked (around : List String) (named : Named) : Node → Except Mistake (Node × Named)
  | sameAs name =>
    if around.contains name then .ok (sameAs name, named)
    else
      match named.lookup name with
      | some n => .ok (n, named)
      | none => .error .malformed
  | scalar a t text => .ok (scalar a t text, Named.with named a (scalar a t text))
  | list a t items => do
    let (items, named) ← linkedItems (a.toList ++ around) named items
    return (list a t items, Named.with named a (list a t items))
  | map a t entries => do
    let (entries, named) ← linkedEntries (a.toList ++ around) named entries
    let n := map a t (ownEntries a entries)
    return (n, Named.with named a n)

/-- The same for items. -/
def linkedItems (around : List String) (named : Named) :
    List Node → Except Mistake (List Node × Named)
  | [] => .ok ([], named)
  | n :: ns => do
    let (n, named) ← linked around named n
    let (ns, named) ← linkedItems around named ns
    return (n :: ns, named)

/-- The same for entries. -/
def linkedEntries (around : List String) (named : Named) : List (Node × Node) →
    Except Mistake (List (Node × Node) × Named)
  | [] => .ok ([], named)
  | (k, v) :: entries => do
    let (k, named) ← linked around named k
    let (v, named) ← linked around named v
    let (entries, named) ← linkedEntries around named entries
    return ((k, v) :: entries, named)

end

mutual

/-- A name is left in the node. -/
def holdsName : Node → Bool
  | sameAs _ => true
  | scalar .. => false
  | list _ _ items => itemsHoldName items
  | map _ _ entries => entriesHoldName entries

/-- A name is left in an item. -/
def itemsHoldName : List Node → Bool
  | [] => false
  | n :: ns => n.holdsName || itemsHoldName ns

/-- A name is left in an entry. -/
def entriesHoldName : List (Node × Node) → Bool
  | [] => false
  | (k, v) :: entries => k.holdsName || v.holdsName || entriesHoldName entries

end

/-- The name of a node that none was given: a number, which no name in a file starts with after a blank. -/
def madeName (n : Nat) : String := " " ++ toString n

mutual

/-- The node with a name for every list and mapping, and the next number for one. -/
def withNames (next : Nat) : Node → Node × Nat
  | list a t items =>
    let (items, after) := itemsWithNames (next + 1) items
    (list (some (a.getD (madeName next))) t items, after)
  | map a t entries =>
    let (entries, after) := entriesWithNames (next + 1) entries
    (map (some (a.getD (madeName next))) t entries, after)
  | n => (n, next)

/-- The same for items. -/
def itemsWithNames (next : Nat) : List Node → List Node × Nat
  | [] => ([], next)
  | n :: ns =>
    let (n, next) := withNames next n
    let (ns, next) := itemsWithNames next ns
    (n :: ns, next)

/-- The same for entries. -/
def entriesWithNames (next : Nat) : List (Node × Node) → List (Node × Node) × Nat
  | [] => ([], next)
  | (k, v) :: entries =>
    let (k, next) := withNames next k
    let (v, next) := withNames next v
    let (entries, next) := entriesWithNames next entries
    ((k, v) :: entries, next)

end

/-- The node of a document with what is meant by names in their place. If a node is meant inside itself,
every list and mapping has a name. -/
def resolved (n : Node) : Except Mistake Node := do
  let plain ← n.linked [] []
  if plain.1.holdsName then return (← ((n.withNames 0).1).linked [] []).1 else return plain.1

/-! ## Merges -/

/-- A key, with the sign of a value as a text. -/
def keyNode : Node → Node
  | scalar a t text => scalar a (if t = .value then .str else t) text
  | n => n

/-- The entries that merges add before the others. -/
def addedFirst (split : List (Node × Node) × List (Node × Node)) : List (Node × Node) :=
  split.1 ++ split.2

mutual

/-- The entries that a merge adds. -/
def mergedOf : Node → Except Mistake (List (Node × Node))
  | map _ _ entries => (splitMerges entries).map addedFirst
  | list _ _ items => (mergedOfItems items).map fun es => es.reverse.flatten
  | _ => .error .malformed
termination_by structural n => n

/-- The entries that each item of a merge adds; every one has to be a mapping. -/
def mergedOfItems : List Node → Except Mistake (List (List (Node × Node)))
  | [] => .ok []
  | map _ _ entries :: ns => do
    let first ← splitMerges entries
    return addedFirst first :: (← mergedOfItems ns)
  | _ :: _ => .error .malformed
termination_by structural ns => ns

/-- The entries that merges add, and the others. -/
def splitMerges : List (Node × Node) → Except Mistake (List (Node × Node) × List (Node × Node))
  | [] => .ok ([], [])
  | (k, v) :: entries => do
    if k.tag = .merge then
      let first ← mergedOf v
      let (added, own) ← splitMerges entries
      return (first ++ added, own)
    else
      let (added, own) ← splitMerges entries
      return (added, (keyNode k, v) :: own)
termination_by structural entries => entries

end

/-- Entries with those that merges add before them. -/
def merged (entries : List (Node × Node)) : Except Mistake (List (Node × Node)) :=
  (splitMerges entries).map addedFirst

mutual

/-- The mappings whose entries a merge adds, each after those that it merges itself. -/
def mergedMaps : Node → List Node
  | map a t entries => mergedMapsIn entries ++ [map a t entries]
  | list _ _ items => mergedMapsOfItems items
  | _ => []

/-- The same for the items of a merge. -/
def mergedMapsOfItems : List Node → List Node
  | [] => []
  | n :: ns => mergedMaps n ++ mergedMapsOfItems ns

/-- The mappings whose entries merges add to a mapping. -/
def mergedMapsIn : List (Node × Node) → List Node
  | [] => []
  | (k, v) :: entries => (if k.tag = .merge then mergedMaps v else []) ++ mergedMapsIn entries

end

/-! ## Scalars -/

mutual

/-- The text of a node where a scalar has to be. A mapping stands for the value of its first entry whose key
is the sign of a value. -/
def scalarText : Node → Except Mistake (List Char)
  | scalar _ _ text => .ok text
  | map _ _ entries => valueText entries
  | _ => .error .malformed

/-- The text of the first entry whose key is the sign of a value. -/
def valueText : List (Node × Node) → Except Mistake (List Char)
  | [] => .error .malformed
  | (k, v) :: entries => if k.tag = .value then scalarText v else valueText entries

end

/-- The scalar of a node whose tag is one of scalars. A mapping is never written like a moment. -/
def scalarOf (n : Node) : Except Mistake Scalar := do
  let text ← n.scalarText
  match n.tag, n with
  | .timestamp, map .. => .error (.unreadable .mappingForMoment)
  | t, _ => Scalar.ofText t text

/-! ## Data -/

/-- The name of a list or mapping. -/
def anchor : Node → Option String
  | sameAs _ => none
  | scalar a _ _ | list a _ _ | map a _ _ => a

/-- The tag is one of lists, mappings and sets, whose content is looked at later, or the node stands for one
around it. -/
def isDeferred : Node → Bool
  | sameAs _ => true
  | n => n.tag = .list || n.tag = .map || n.tag = .set || n.tag = .pairs

/-- What is wrong with a node, apart from its content. -/
def checkHead (n : Node) : Except Mistake Unit :=
  if n.isDeferred then .ok () else n.scalarOf.map fun _ => ()

/-- Checks entries of a mapping, key before value. -/
def checkEntries : List (Node × Node) → Except Mistake Unit
  | [] => .ok ()
  | (k, v) :: entries => do
    checkHead k
    if k.isDeferred then .error .malformed
    checkHead v
    checkEntries entries

/-- The only entry of a mapping. -/
def onlyEntry : Node → Except Mistake (Node × Node)
  | map _ _ [entry] => .ok entry
  | _ => .error .malformed

/-- Checks the pairs of a list, each of which is a mapping with one entry. -/
def checkPairs : List Node → Except Mistake Unit
  | [] => .ok ()
  | n :: ns => do
    let (k, v) ← n.onlyEntry
    checkHead k
    checkHead v
    checkPairs ns

/-- What a node holds, after it is checked. -/
def opened (n : Node) : Except Mistake (List Node) :=
  match n.tag, n with
  | .list, list _ _ items => do
    items.forM checkHead
    return items
  | .pairs, list _ _ items => do
    checkPairs items
    return (← items.mapM onlyEntry).flatMap fun e => [e.1, e.2]
  | .map, map _ _ entries | .set, map _ _ entries => do
    let entries ← merged entries
    checkEntries entries
    return entries.flatMap fun e => [e.1, e.2]
  | _, sameAs _ => .ok []
  | _, _ => .error .malformed

/-- Checks nodes level by level. A level is one deeper in the nodes than the one before, so as many steps as
there are levels suffice. -/
def checkLevels : Nat → List Node → Except Mistake Unit
  | 0, _ => .ok ()
  | steps + 1, level => do
    let next := (← (level.filter isDeferred).mapM opened).flatten
    if next.isEmpty then .ok () else checkLevels steps next

mutual

/-- How deeply a node nests. -/
def depth : Node → Nat
  | sameAs _ | scalar .. => 0
  | list _ _ items => itemsDepth items + 1
  | map _ _ entries => entriesDepth entries + 1

/-- The greatest depth of an item. -/
def itemsDepth : List Node → Nat
  | [] => 0
  | n :: ns => max n.depth (itemsDepth ns)

/-- The greatest depth of a key or value. -/
def entriesDepth : List (Node × Node) → Nat
  | [] => 0
  | (k, v) :: entries => max (max k.depth v.depth) (entriesDepth entries)

end

/-- The key that data is. -/
def keyOf : Data → Except Mistake Scalar
  | .scalar s => .ok s
  | _ => .error .malformed

/-- Entries of data, the last of each key. -/
def lastEntries (entries : List (Scalar × Data)) : List (Scalar × Data) :=
  entries.foldl (fun known e => Data.put e.1 e.2 known) []

/-- The entries of a mapping, which may hold the names of mappings that it merges: each name stands for the data
of its mapping. -/
def fillMerged (read : Node → Except Mistake Data) (entries : List (Node × Node))
    (known : List (Scalar × Data)) : Except Mistake (List (Scalar × Data)) :=
  if Data.entriesHoldAgain known then
    (mergedMapsIn entries).foldlM (fun known n => do
      match n.anchor with
      | some name => return Data.entriesWithName name (← read n) known
      | none => return known) known
  else .ok known

/-- The data of a node. No level below the first is deeper than the depth of the node. -/
def dataWithin : Nat → Node → Except Mistake Data
  | _, sameAs name => .ok (.again name)
  | 0, n => n.scalarOf.map .scalar
  | steps + 1, n => do
    let entriesData (entries : List (Node × Node)) : Except Mistake (List (Scalar × Data)) :=
      entries.mapM fun e => do return (← keyOf (← dataWithin steps e.1), ← dataWithin steps e.2)
    let pairData (n : Node) : Except Mistake Data := do
      let e ← n.onlyEntry
      return .named n.anchor (.pair (← dataWithin steps e.1) (← dataWithin steps e.2))
    let d ← match n.tag, n with
      | .list, list _ _ items => (items.mapM (dataWithin steps)).map .list
      | .pairs, list _ _ items => (items.mapM pairData).map .list
      | .map, map _ _ entries =>
        let known := lastEntries (← entriesData (← merged entries))
        pure (Data.map (← fillMerged (dataWithin steps) entries known))
      | .set, map _ _ entries =>
        pure (Data.set (Scalar.inPlaces ((lastEntries (← entriesData (← merged entries))).map Prod.fst)))
      | _, _ => n.scalarOf.map .scalar
    return .named n.anchor d

/-- The data of a document. -/
def data (n : Node) : Except Mistake Data := do
  let n ← n.resolved
  checkHead n
  checkLevels (n.depth + 1) [n]
  dataWithin (n.depth + 1) n

end Node

/-- The data of a text, or the mistake that is met first in it or, if it is not whole, in what is known of it; an
empty text holds no value. -/
def Data.ofText (isWhole : Bool) (cs : List Char) : Except Mistake Data := do
  match tokens? isWhole cs with
  | none => .error .malformed
  | some ts =>
    match ← Node.document? ts with
    | some n => n.data
    | none => return Data.null

end RefCheck.Yaml
