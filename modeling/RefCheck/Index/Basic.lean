import RefCheck.Index.Table
import RefCheck.Log.Event
import RefCheck.Model.Basic
import RefCheck.Reference.Basic

/-!
# Indexes

An index answers by table what a search through the model would: which reflection a module exports under
a name, which member or event of a class has a name, and which types a class descends from. It is built
once, in one walk over the model; changes to the model after that do not reach it.

* Of several exports, or events, of one name the first counts.
* Of several members of one name the first counts, but a member that is declared in the class itself
  replaces a copy that is inherited.
* The ancestors of a class are searched level by level: its bases in the order of their declaration, then
  theirs. The events of a class are its own, then those of its ancestors in this order.
-/

namespace RefCheck

open RefCheck.Log

/-- The tables of one class or interface. -/
structure ContainerEntry where
  /-- Its members by name and marker. -/
  members : Table (String × Marker) Handle
  /-- Its own events by name. -/
  events : Table String Handle
  /-- The types that it descends from. -/
  ancestors : List Handle
  /-- Its own events and those of its ancestors. -/
  allEvents : Table String Handle
  deriving Inhabited, Repr

/-- A class without members. -/
def ContainerEntry.empty : ContainerEntry := ⟨.empty, .empty, [], .empty⟩

/-- What was counted while an index was built. -/
structure IndexStats where
  /-- The modules. -/
  modules : Nat
  /-- The exports of modules. -/
  exports : Nat
  /-- The classes and interfaces. -/
  containers : Nat
  /-- Their members. -/
  members : Nat
  /-- Their own events. -/
  events : Nat
  /-- The events that they inherit. -/
  inheritedEvents : Nat
  deriving DecidableEq, Repr, Inhabited

/-- The counts by name, in the order in which a log lists them. -/
def IndexStats.fields (s : IndexStats) : List (String × Value) :=
  [("modules", .nat s.modules), ("exports", .nat s.exports), ("containers", .nat s.containers),
    ("members", .nat s.members), ("events", .nat s.events),
    ("inherited_events", .nat s.inheritedEvents)]

/-- What a module exports: the module itself has no name. -/
abbrev ExportKey := List String × Option String

/-- Tables over a model. -/
structure Index where
  /-- The modules and what they export. -/
  exports : Table ExportKey Handle
  /-- The classes and interfaces. -/
  containers : Table Handle ContainerEntry
  /-- What was counted. -/
  stats : IndexStats
  deriving Inhabited, Repr

namespace Index

/-- The index of no reflections. -/
def empty : Index := ⟨.empty, .empty, ⟨0, 0, 0, 0, 0, 0⟩⟩

/-! ## Modules -/

/-- Adds one child of a module, other modules excepted. -/
def addExport (m : Model) (path : List String) (ix : Index) (child : Handle) : Index :=
  if (m.get child).isModule then ix
  else
    let key := (path, some (m.get child).name)
    let exports := ix.exports.putNew key child
    { ix with
      exports
      stats := { ix.stats with
        exports := ix.stats.exports + if exports.get? key = some child then 1 else 0 } }

/-- Adds a module and what it exports. -/
def addModule (m : Model) (ix : Index) (h : Handle) : Index :=
  let path := (m.get h).modulePath
  let ix := { ix with
    exports := ix.exports.putNew (path, none) h
    stats := { ix.stats with modules := ix.stats.modules + 1 } }
  (m.get h).children.foldl (addExport m path) ix

/-! ## Classes and interfaces -/

/-- The marker by which a member is addressed. -/
def memberMarker (r : Reflection) : Marker := if r.isStatic then .static else .inst

/-- Tables with counts of members and events. -/
abbrev Counted := ContainerEntry × Nat × Nat

/-- Adds an event to the tables of a class. -/
def addEvent (m : Model) (acc : Counted) (child : Handle) : Counted :=
  let (entry, members, events) := acc
  let name := (m.get child).name
  let table := entry.events.putNew name child
  ({ entry with events := table }, members,
    events + if table.get? name = some child then 1 else 0)

/-- Adds a member to the tables of a class. -/
def addMember (m : Model) (acc : Counted) (child : Handle) : Counted :=
  let (entry, members, events) := acc
  let key := ((m.get child).name, memberMarker (m.get child))
  match entry.members.get? key with
  | none => ({ entry with members := entry.members.put key child }, members + 1, events)
  | some existing =>
    if (m.get existing).isInherited && !(m.get child).isInherited then
      ({ entry with members := entry.members.put key child }, members, events)
    else acc

/-- Adds a child to the tables of a class. -/
def addToContainer (m : Model) (acc : Counted) (child : Handle) : Counted :=
  if (m.get child).kind.meets .event then addEvent m acc child
  else if (m.get child).kind.meets .member then addMember m acc child
  else acc

/-- Adds a class or interface. -/
def addContainer (m : Model) (ix : Index) (h : Handle) : Index :=
  let (entry, members, events) :=
    (m.get h).children.foldl (addToContainer m) (ContainerEntry.empty, 0, 0)
  { ix with
    containers := ix.containers.put h entry
    stats := { ix.stats with
      containers := ix.stats.containers + 1
      members := ix.stats.members + members
      events := ix.stats.events + events } }

/-- Adds a reflection. -/
def addReflection (m : Model) (ix : Index) (h : Handle) : Index :=
  let ix := if (m.get h).isModule then addModule m ix h else ix
  if (m.get h).isContainer then addContainer m ix h else ix

/-! ## Ancestors -/

/-- Searches level by level: takes the first of a queue, and appends its bases. Only reflections that
were not seen before are taken, each once. -/
def searchBases (m : Model) (queue unseen : List Handle) : List Handle :=
  match queue with
  | [] => []
  | b :: rest =>
    if b ∈ unseen then b :: searchBases m (rest ++ (m.get b).bases) (unseen.erase b)
    else searchBases m rest unseen
termination_by (unseen.length, queue.length)
decreasing_by
  · rename_i h
    have h1 := List.length_erase_of_mem h
    have h2 := List.length_pos_of_mem h
    apply Prod.Lex.left
    omega
  · apply Prod.Lex.right
    simp

/-- The types that a reflection descends from, in the order of the search. -/
def ancestorsOf (m : Model) (h : Handle) : List Handle :=
  searchBases m (m.get h).bases ((List.range m.size).erase h)

/-- Adds the events of an ancestor that have a new name, and counts them. -/
def inheritEvents (acc : Table String Handle × Nat) (events : Table String Handle) :
    Table String Handle × Nat :=
  events.entries.foldl (fun acc e =>
    if (acc.1.get? e.1).isSome then acc else (acc.1.putNew e.1 e.2, acc.2 + 1)) acc

/-- The own events of a class, and those that it inherits, with the count of the latter. -/
def collectEvents (containers : Table Handle ContainerEntry) (entry : ContainerEntry)
    (ancestors : List Handle) : Table String Handle × Nat :=
  ancestors.foldl (fun acc a =>
    match containers.get? a with
    | some e => inheritEvents acc e.events
    | none => acc) (entry.events, 0)

/-- Completes the tables of a class once every class has its own. -/
def completeEntry (m : Model) (containers : Table Handle ContainerEntry)
    (e : Handle × ContainerEntry) : (Handle × ContainerEntry) × Nat :=
  let ancestors := ancestorsOf m e.1
  let (allEvents, count) := collectEvents containers e.2 ancestors
  ((e.1, { e.2 with ancestors, allEvents }), count)

/-- Completes the tables of every class. -/
def complete (m : Model) (ix : Index) : Index :=
  let completed := ix.containers.entries.map (completeEntry m ix.containers)
  { ix with
    containers := ⟨completed.map Prod.fst⟩
    stats := { ix.stats with inheritedEvents := completed.foldr (fun e n => e.2 + n) 0 } }

/-- The index of a model. -/
def build (m : Model) : Index := (m.walk.foldl (addReflection m) empty).complete m

/-- What a log tells of a new index. -/
def event (ix : Index) : Event := .debug "reflection_index_built" ix.stats.fields

/-! ## Questions -/

/-- The module of a path, or what it exports under a name. -/
def export? (ix : Index) (path : List String) (name : Option String) : Option Handle :=
  ix.exports.get? (path, name)

/-- The member of a class by name and marker. -/
def member? (ix : Index) (container : Handle) (name : String) (marker : Marker) : Option Handle :=
  (ix.containers.get? container).bind fun e => e.members.get? (name, marker)

/-- The event of a class by name, its own or an inherited one. -/
def event? (ix : Index) (container : Handle) (name : String) : Option Handle :=
  (ix.containers.get? container).bind fun e => e.allEvents.get? name

/-- The types that a class descends from. -/
def ancestors (ix : Index) (container : Handle) : List Handle :=
  match ix.containers.get? container with
  | some e => e.ancestors
  | none => []

end Index

end RefCheck
