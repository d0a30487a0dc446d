import Mathlib.Data.List.Induction
import Mathlib.Data.Set.Card
import RefCheck.Proofs.Index.Tables

/-!
# What an index counts

While an index is built, counts are kept beside its tables. `Index.counts_build` says what they come to: each is
the number of distinct names of some sort in the model, although several modules may share a path, children may
share a name, and the classes that one descends from may declare the same events.

## Names that are counted once

All counts of names go up by the same rule, in the step that enters a name into a table: only a name that is not there
yet counts. `Table.Tallies` says that a count and a table have kept step with a list of names, and
`Tallies.putNew` that they go on doing so. Exports and own events are counted by another sign, namely that what is
found under the name afterwards is what was entered. This is the same as long as nothing is entered twice, which
is where it matters that the model is a tree.

The events that a class inherits are counted on top of its own, so there the tally starts from the number of
those.
-/

namespace RefCheck

namespace Table

variable {κ α ν : Type} [DecidableEq κ] [DecidableEq ν]

/-- The names that a table knows are those of a list, and a count says how many there are. Each name has a key of
its own. -/
structure Tallies (t : Table κ α) (keyOf : ν → κ) (names : List ν) (count : Nat) : Prop where
  /-- What is in the table. -/
  isSome_iff : ∀ name, (t.get? (keyOf name)).isSome = true ↔ name ∈ names
  /-- What was counted. -/
  count_eq : count = names.toFinset.card

/-- What a table holds under names is among some values. -/
def HoldsOnly (t : Table κ α) (keyOf : ν → κ) (values : List α) : Prop :=
  ∀ name v, t.get? (keyOf name) = some v → v ∈ values

variable {t t' : Table κ α} {keyOf : ν → κ} {names : List ν} {values : List α} {count : Nat}

theorem tallies_empty (keyOf : ν → κ) : (empty : Table κ α).Tallies keyOf [] 0 :=
  ⟨fun _ ↦ iff_of_false Bool.false_ne_true List.not_mem_nil, rfl⟩

omit [DecidableEq ν] in
theorem holdsOnly_empty (keyOf : ν → κ) : (empty : Table κ α).HoldsOnly keyOf [] :=
  fun _ _ h ↦ (Option.some_ne_none _ h.symm).elim

/-- One more name counts if it is new. -/
theorem Tallies.concat (h : t.Tallies keyOf names count) {name : ν}
    (hget : ∀ n, (t'.get? (keyOf n)).isSome = true ↔ (t.get? (keyOf n)).isSome = true ∨ n = name) :
    t'.Tallies keyOf (names ++ [name])
      (count + if (t.get? (keyOf name)).isSome = true then 0 else 1) := by
  refine ⟨fun n ↦ ?_, ?_⟩
  · rw [hget, h.isSome_iff, List.mem_append, List.mem_singleton]
  · rw [h.count_eq, List.toFinset_append, List.toFinset_cons, List.toFinset_nil, insert_empty_eq,
      Finset.union_comm, ← Finset.insert_eq]
    by_cases hname : name ∈ names
    · rw [if_pos ((h.isSome_iff name).mpr hname),
        Finset.insert_eq_of_mem (List.mem_toFinset.mpr hname), Nat.add_zero]
    · rw [if_neg fun hsome ↦ hname ((h.isSome_iff name).mp hsome),
        Finset.card_insert_of_notMem fun hmem ↦ hname (List.mem_toFinset.mp hmem)]

/-- So it does wherever something is entered under its key, whether that replaces what was there or not. -/
theorem Tallies.enter (h : t.Tallies keyOf names count) (hkey : Function.Injective keyOf) {name : ν}
    {entered : α} (hget : ∀ k, t'.get? k = if k = keyOf name then some entered else t.get? k) :
    t'.Tallies keyOf (names ++ [name])
      (count + if (t.get? (keyOf name)).isSome = true then 0 else 1) := by
  apply h.concat
  intro n
  rw [hget]
  by_cases hn : n = name
  · rw [if_pos (congrArg keyOf hn)]
    exact iff_of_true rfl (.inr hn)
  · rw [if_neg (hkey.ne hn)]
    exact (or_iff_left hn).symm

theorem Tallies.putNew (h : t.Tallies keyOf names count) (hkey : Function.Injective keyOf)
    (name : ν) (value : α) :
    (t.putNew (keyOf name) value).Tallies keyOf (names ++ [name])
      (count + if (t.get? (keyOf name)).isSome = true then 0 else 1) :=
  h.enter hkey fun k ↦ get?_putNew t (keyOf name) k value

theorem Tallies.put (h : t.Tallies keyOf names count) (hkey : Function.Injective keyOf)
    (name : ν) (value : α) :
    (t.put (keyOf name) value).Tallies keyOf (names ++ [name])
      (count + if (t.get? (keyOf name)).isSome = true then 0 else 1) :=
  h.enter hkey fun k ↦ get?_put t (keyOf name) k value

/-- A name that is there already may come again. -/
theorem Tallies.again (h : t.Tallies keyOf names count) {name : ν}
    (hname : (t.get? (keyOf name)).isSome = true) : t.Tallies keyOf (names ++ [name]) count := by
  have hsame : t.Tallies keyOf (names ++ [name])
      (count + if (t.get? (keyOf name)).isSome = true then 0 else 1) :=
    h.concat fun n ↦ (or_iff_left_of_imp fun hn ↦ hn ▸ hname).symm
  rwa [if_pos hname] at hsame

theorem HoldsOnly.putNew (h : t.HoldsOnly keyOf values) (hkey : Function.Injective keyOf)
    (name : ν) (value : α) : (t.putNew (keyOf name) value).HoldsOnly keyOf (values ++ [value]) := by
  intro n v hv
  rw [get?_putNew] at hv
  by_cases hn : n = name
  · rw [if_pos (congrArg keyOf hn), Option.some.injEq] at hv
    rw [List.mem_append, List.mem_singleton, ← hv]
    cases hold : t.get? (keyOf name) with
    | none => exact .inr rfl
    | some w => exact .inl (h name w hold)
  · rw [if_neg (hkey.ne hn)] at hv
    exact List.mem_append_left _ (h n v hv)

omit [DecidableEq ν] in
/-- What is entered is found exactly if its key is new, unless it was entered before. -/
theorem get?_putNew_self_iff [DecidableEq α] (h : t.HoldsOnly keyOf values) {name : ν} {value : α}
    (hvalue : value ∉ values) :
    (if (t.putNew (keyOf name) value).get? (keyOf name) = some value then 1 else 0)
      = if (t.get? (keyOf name)).isSome = true then 0 else 1 := by
  rw [get?_putNew, if_pos rfl]
  cases hold : t.get? (keyOf name) with
  | none => simp
  | some w =>
    have hne : w ≠ value := fun heq ↦ hvalue (heq ▸ h name w hold)
    simp [hne]

omit [DecidableEq ν] in
/-- A key that is not there comes last. -/
theorem putEntry_of_forall_ne {entries : List (κ × α)} {key : κ} {value : α}
    (h : ∀ e ∈ entries, e.1 ≠ key) : putEntry key value entries = entries ++ [(key, value)] := by
  induction entries with
  | nil => rfl
  | cons e entries ih =>
    obtain ⟨he, hrest⟩ := List.forall_mem_cons.mp h
    rw [putEntry, if_neg he, ih hrest, List.cons_append]

end Table

/-! ## Names in a model -/

namespace Model

variable (m : Model)

/-- The classes and interfaces among some reflections. -/
def containersIn (hs : List Handle) : List Handle := hs.filter fun h ↦ (m.get h).isContainer

/-- The children of a module that it exports. -/
def exportedBy (h : Handle) : List Handle := (m.get h).children.filter fun c ↦ !(m.get c).isModule

/-- What the modules among some reflections export. -/
def exportedIn (hs : List Handle) : List Handle :=
  (hs.filter fun h ↦ (m.get h).isModule).flatMap m.exportedBy

/-- The path of each module among some reflections, with the name of each child that it exports. -/
def exportNames (hs : List Handle) : List (List String × String) :=
  (hs.filter fun h ↦ (m.get h).isModule).flatMap fun h ↦
    (m.exportedBy h).map fun c ↦ ((m.get h).modulePath, (m.get c).name)

/-- The names of members among some children, each with whether it is static. -/
def memberNames (cs : List Handle) : List (String × Bool) :=
  (cs.filter fun c ↦ (m.get c).kind.meets .member && !(m.get c).kind.meets .event).map fun c ↦
    ((m.get c).name, (m.get c).isStatic)

/-- The names of events among some children. -/
def eventNames (cs : List Handle) : List String :=
  (cs.filter fun c ↦ (m.get c).kind.meets .event).map fun c ↦ (m.get c).name

end Model

namespace Index

/-- The names of events that an index finds for a class although none of its children has them. -/
def inheritedNames (ix : Index) (m : Model) (h : Handle) : Set String :=
  {name | (ix.event? h name).isSome = true ∧ name ∉ m.eventNames (m.get h).children}

/-- The counts of an index are those of the model. -/
structure Counts (m : Model) (ix : Index) : Prop where
  /-- Each module of the walk counts, also where several share a path. -/
  modules : ix.stats.modules = m.walk.countP fun h ↦ (m.get h).isModule
  /-- A name counts once for each path. -/
  exports : ix.stats.exports = (m.exportNames m.walk).toFinset.card
  /-- Each class and interface of the walk counts. -/
  containers : ix.stats.containers = (m.containersIn m.walk).length
  /-- In each of them a name counts once as that of a static member and once as that of another. -/
  members : ix.stats.members
    = ((m.containersIn m.walk).map fun h ↦ (m.memberNames (m.get h).children).toFinset.card).sum
  /-- In each of them the name of an event counts once. -/
  events : ix.stats.events
    = ((m.containersIn m.walk).map fun h ↦ (m.eventNames (m.get h).children).toFinset.card).sum
  /-- There is an end to the events that a class inherits. -/
  finite : ∀ h ∈ m.containersIn m.walk, (ix.inheritedNames m h).Finite
  /-- For each of them the name of an event counts once that is found and is not its own. -/
  inheritedEvents : ix.stats.inheritedEvents
    = ((m.containersIn m.walk).map fun h ↦ (ix.inheritedNames m h).ncard).sum

variable {m : Model}

/-! ## One class -/

/-- The key of a member. -/
private def memberKey (name : String × Bool) : String × Marker :=
  (name.1, if name.2 then .static else .inst)

private theorem memberKey_injective : Function.Injective memberKey := by
  have hmarker : ∀ a b : Bool, (if a then Marker.static else .inst)
      = (if b then Marker.static else .inst) → a = b := by decide
  rintro ⟨n, a⟩ ⟨n', b⟩ h
  rw [memberKey, memberKey, Prod.mk.injEq] at h
  rw [Prod.mk.injEq]
  exact ⟨h.1, hmarker a b h.2⟩

/-- The tables of a class have kept step with some of its children. -/
private structure TalliesChildren (m : Model) (cs : List Handle) (acc : Counted) : Prop where
  events : acc.1.events.Tallies id (m.eventNames cs) acc.2.2
  held : acc.1.events.HoldsOnly id cs
  members : acc.1.members.Tallies memberKey (m.memberNames cs) acc.2.1

private theorem members_tallies_addMember {cs : List Handle} {acc : Counted} (c : Handle)
    (h : acc.1.members.Tallies memberKey (m.memberNames cs) acc.2.1) :
    (addMember m acc c).1.members.Tallies memberKey
      (m.memberNames cs ++ [((m.get c).name, (m.get c).isStatic)]) (addMember m acc c).2.1 := by
  obtain ⟨entry, members, events⟩ := acc
  have hput := h.put memberKey_injective ((m.get c).name, (m.get c).isStatic) c
  rw [addMember]
  -- a member that replaces a copy brings no new name
  split
  · next hnone =>
    rwa [show entry.members.get? (memberKey ((m.get c).name, (m.get c).isStatic)) = none from hnone]
      at hput
  · next existing hsome =>
    have hthere : (entry.members.get? (memberKey ((m.get c).name, (m.get c).isStatic))).isSome = true :=
      Option.isSome_of_mem hsome
    rw [if_pos hthere] at hput
    split
    · exact hput
    · exact h.again hthere

private theorem TalliesChildren.concat {cs : List Handle} {acc : Counted}
    (h : TalliesChildren m cs acc) {c : Handle} (hc : c ∉ cs) :
    TalliesChildren m (cs ++ [c]) (addToContainer m acc c) := by
  have hheld : acc.1.events.HoldsOnly id (cs ++ [c]) :=
    fun name v hv ↦ List.mem_append_left _ (h.held name v hv)
  rw [addToContainer]
  by_cases hevent : (m.get c).kind.meets .event = true
  · have hevents : m.eventNames (cs ++ [c]) = m.eventNames cs ++ [(m.get c).name] := by
      simp [Model.eventNames, hevent]
    have hmembers : m.memberNames (cs ++ [c]) = m.memberNames cs := by
      simp [Model.memberNames, hevent]
    have hput := h.events.putNew Function.injective_id (m.get c).name c
    rw [← Table.get?_putNew_self_iff h.held hc] at hput
    rw [if_pos hevent]
    refine ⟨?_, h.held.putNew Function.injective_id (m.get c).name c, ?_⟩
    · rw [hevents]
      exact hput
    · rw [hmembers]
      exact h.members
  have hevents : m.eventNames (cs ++ [c]) = m.eventNames cs := by simp [Model.eventNames, hevent]
  rw [if_neg hevent]
  by_cases hmember : (m.get c).kind.meets .member = true
  · have hmembers : m.memberNames (cs ++ [c])
        = m.memberNames cs ++ [((m.get c).name, (m.get c).isStatic)] := by
      simp [Model.memberNames, hevent, hmember]
    obtain ⟨hkept, hcount⟩ : (addMember m acc c).1.events = acc.1.events ∧
        (addMember m acc c).2.2 = acc.2.2 := by
      obtain ⟨entry, members, events⟩ := acc
      rw [addMember]
      split
      · exact ⟨rfl, rfl⟩
      · split <;> exact ⟨rfl, rfl⟩
    rw [if_pos hmember]
    refine ⟨?_, ?_, ?_⟩
    · rw [hkept, hcount, hevents]
      exact h.events
    · rw [hkept]
      exact hheld
    · rw [hmembers]
      exact members_tallies_addMember c h.members
  · have hmembers : m.memberNames (cs ++ [c]) = m.memberNames cs := by
      simp [Model.memberNames, hmember]
    rw [if_neg hmember]
    refine ⟨?_, hheld, ?_⟩
    · rw [hevents]
      exact h.events
    · rw [hmembers]
      exact h.members

/-- The counts of one class are those of the names of its children. -/
private theorem talliesChildren {cs : List Handle} (hcs : cs.Nodup) :
    TalliesChildren m cs (cs.foldl (addToContainer m) (ContainerEntry.empty, 0, 0)) := by
  induction cs using List.reverseRecOn with
  | nil => exact ⟨Table.tallies_empty id, Table.holdsOnly_empty id, Table.tallies_empty memberKey⟩
  | append_singleton cs c ih =>
    obtain ⟨hcs, -, hdisjoint⟩ := List.nodup_append.mp hcs
    rw [List.foldl_append, List.foldl_cons, List.foldl_nil]
    exact (ih hcs).concat fun hc ↦ hdisjoint c hc c (List.mem_singleton_self c) rfl

/-! ## One module -/

/-- The key of an export. -/
private def exportKey (name : List String × String) : ExportKey := (name.1, some name.2)

private theorem exportKey_injective : Function.Injective exportKey := by
  rintro ⟨path, name⟩ ⟨path', name'⟩ h
  rw [exportKey, exportKey, Prod.mk.injEq, Option.some.injEq] at h
  rw [Prod.mk.injEq]
  exact h

/-- Adding exports changes nothing but their table and their count. -/
private theorem exists_foldl_addExport (path : List String) (cs : List Handle) (ix : Index) :
    ∃ exports count, cs.foldl (addExport m path) ix
      = { ix with exports, stats := { ix.stats with exports := count } } := by
  induction cs generalizing ix with
  | nil => exact ⟨ix.exports, ix.stats.exports, rfl⟩
  | cons c cs ih =>
    rw [List.foldl_cons, addExport]
    split
    · exact ih ix
    · obtain ⟨exports, count, heq⟩ := ih _
      exact ⟨exports, count, heq⟩

/-- The table of exports and its count have kept step with some names; what it holds is among some values. -/
private structure TalliesExports (names : List (List String × String)) (values : List Handle)
    (ix : Index) : Prop where
  tallies : ix.exports.Tallies exportKey names ix.stats.exports
  held : ix.exports.HoldsOnly exportKey values

private theorem TalliesExports.addExport {names : List (List String × String)} {values : List Handle}
    {ix : Index} (h : TalliesExports names values ix) (path : List String) {c : Handle}
    (hc : (m.get c).isModule = false) (hnew : c ∉ values) :
    TalliesExports (names ++ [(path, (m.get c).name)]) (values ++ [c]) (addExport m path ix c) := by
  have hput := h.tallies.putNew exportKey_injective (path, (m.get c).name) c
  rw [← Table.get?_putNew_self_iff h.held hnew] at hput
  rw [Index.addExport, if_neg (Bool.eq_false_iff.mp hc)]
  exact ⟨hput, h.held.putNew exportKey_injective (path, (m.get c).name) c⟩

private theorem TalliesExports.foldl_addExport {names : List (List String × String)}
    {values cs : List Handle} {ix : Index} (h : TalliesExports names values ix) (path : List String)
    (hnew : (values ++ cs.filter fun c ↦ !(m.get c).isModule).Nodup) :
    TalliesExports
      (names ++ (cs.filter fun c ↦ !(m.get c).isModule).map fun c ↦ (path, (m.get c).name))
      (values ++ cs.filter fun c ↦ !(m.get c).isModule) (cs.foldl (Index.addExport m path) ix) := by
  induction cs generalizing names values ix with
  | nil => simpa using h
  | cons c cs ih =>
    rw [List.foldl_cons]
    by_cases hc : (m.get c).isModule = true
    · rw [List.filter_cons_of_neg (by simp [hc])] at hnew ⊢
      rw [Index.addExport, if_pos hc]
      exact ih h hnew
    · rw [List.filter_cons_of_pos (by simp [hc])] at hnew ⊢
      rw [List.append_cons] at hnew
      have hfresh : c ∉ values := fun hmem ↦
        (List.nodup_append.mp (List.nodup_append.mp hnew).1).2.2 c hmem c (List.mem_singleton_self c) rfl
      have hrest := ih (h.addExport path (Bool.eq_false_iff.mpr hc) hfresh) hnew
      rwa [List.append_assoc, List.append_assoc, List.singleton_append, List.singleton_append]
        at hrest

/-! ## The walk -/

/-- What an index has counted once some reflections were added to it. -/
private structure CountsWalk (m : Model) (hs : List Handle) (ix : Index) : Prop where
  modules : ix.stats.modules = hs.countP fun h ↦ (m.get h).isModule
  exports : TalliesExports (m.exportNames hs) (m.exportedIn hs) ix
  entries : ix.containers.entries = (m.containersIn hs).map fun h ↦ (h, ownEntry m h)
  containers : ix.stats.containers = (m.containersIn hs).length
  members : ix.stats.members
    = ((m.containersIn hs).map fun h ↦ (m.memberNames (m.get h).children).toFinset.card).sum
  events : ix.stats.events
    = ((m.containersIn hs).map fun h ↦ (m.eventNames (m.get h).children).toFinset.card).sum

private theorem countsWalk_empty : CountsWalk m [] empty :=
  ⟨rfl, ⟨Table.tallies_empty exportKey, Table.holdsOnly_empty exportKey⟩, rfl, rfl, rfl, rfl⟩

/-- A module brings itself and what it exports. -/
private theorem TalliesExports.addModule {hs : List Handle} {ix : Index}
    (h : TalliesExports (m.exportNames hs) (m.exportedIn hs) ix) {k : Handle}
    (hk : (m.get k).isModule = true) (hnew : (m.exportedIn (hs ++ [k])).Nodup) :
    TalliesExports (m.exportNames (hs ++ [k])) (m.exportedIn (hs ++ [k])) (Index.addModule m ix k) := by
  have hnames : m.exportNames (hs ++ [k]) = m.exportNames hs ++
      ((m.get k).children.filter fun c ↦ !(m.get c).isModule).map fun c ↦
        ((m.get k).modulePath, (m.get c).name) := by
    simp [Model.exportNames, Model.exportedBy, hk]
  have hvalues : m.exportedIn (hs ++ [k])
      = m.exportedIn hs ++ (m.get k).children.filter fun c ↦ !(m.get c).isModule := by
    simp [Model.exportedIn, Model.exportedBy, hk]
  -- the entry of the module itself has no name and so is none of those counted
  have hself : ∀ name, (ix.exports.putNew ((m.get k).modulePath, none) k).get? (exportKey name)
      = ix.exports.get? (exportKey name) := by
    intro name
    rw [Table.get?_putNew, if_neg]
    rw [exportKey, Prod.mk.injEq]
    exact fun hboth ↦ Option.some_ne_none _ hboth.2
  rw [hvalues] at hnew
  rw [hnames, hvalues, Index.addModule]
  apply TalliesExports.foldl_addExport _ _ hnew
  refine ⟨⟨fun name ↦ ?_, h.tallies.count_eq⟩, fun name v hv ↦ ?_⟩
  · rw [← h.tallies.isSome_iff, ← hself]
  · rw [hself] at hv
    exact h.held name v hv

private theorem addModule_eq (ix : Index) (k : Handle) :
    ∃ exports count, addModule m ix k = { ix with
      exports
      stats := { ix.stats with modules := ix.stats.modules + 1, exports := count } } := by
  obtain ⟨exports, count, heq⟩ := exists_foldl_addExport (m := m) (m.get k).modulePath (m.get k).children
    { ix with
      exports := ix.exports.putNew ((m.get k).modulePath, none) k
      stats := { ix.stats with modules := ix.stats.modules + 1 } }
  exact ⟨exports, count, heq⟩

/-- The first half of a step: the reflection is a module, or nothing is done. -/
private theorem CountsWalk.withModule {hs : List Handle} {ix : Index} (h : CountsWalk m hs ix)
    {k : Handle} (hnew : (m.exportedIn (hs ++ [k])).Nodup) :
    ∃ exports modules count, (if (m.get k).isModule then addModule m ix k else ix)
        = { ix with exports, stats := { ix.stats with modules, exports := count } } ∧
      modules = (hs ++ [k]).countP (fun h ↦ (m.get h).isModule) ∧
      TalliesExports (m.exportNames (hs ++ [k])) (m.exportedIn (hs ++ [k]))
        (if (m.get k).isModule then addModule m ix k else ix) := by
  by_cases hk : (m.get k).isModule = true
  · obtain ⟨exports, count, heq⟩ := addModule_eq (m := m) ix k
    rw [if_pos hk]
    refine ⟨exports, ix.stats.modules + 1, count, heq, ?_, h.exports.addModule hk hnew⟩
    rw [List.countP_append, List.countP_singleton, if_pos hk, h.modules]
  · have hnames : m.exportNames (hs ++ [k]) = m.exportNames hs := by simp [Model.exportNames, hk]
    have hvalues : m.exportedIn (hs ++ [k]) = m.exportedIn hs := by simp [Model.exportedIn, hk]
    rw [if_neg hk, hnames, hvalues]
    refine ⟨ix.exports, ix.stats.modules, ix.stats.exports, rfl, ?_, h.exports⟩
    rw [List.countP_append, List.countP_singleton, if_neg hk, h.modules, Nat.add_zero]

/-- **One more reflection.** -/
private theorem CountsWalk.addReflection {hs : List Handle} {ix : Index} (h : CountsWalk m hs ix)
    {k : Handle} (hk : k ∉ hs) (hchildren : (m.get k).children.Nodup)
    (hnew : (m.exportedIn (hs ++ [k])).Nodup) :
    CountsWalk m (hs ++ [k]) (addReflection m ix k) := by
  obtain ⟨exports, modules, count, heq, hmodules, hexports⟩ := h.withModule hnew
  rw [Index.addReflection]
  rw [heq] at hexports ⊢
  by_cases hc : (m.get k).isContainer = true
  · have hin : m.containersIn (hs ++ [k]) = m.containersIn hs ++ [k] := by
      simp [Model.containersIn, hc]
    have htallies := talliesChildren (m := m) hchildren
    have hfresh : ∀ e ∈ ix.containers.entries, e.1 ≠ k := by
      rw [h.entries]
      intro e he
      obtain ⟨l, hl, rfl⟩ := List.mem_map.mp he
      exact fun heq ↦ hk (heq ▸ List.mem_of_mem_filter hl)
    rw [if_pos hc, addContainer]
    refine ⟨hmodules, ⟨hexports.tallies, hexports.held⟩, ?_, ?_, ?_, ?_⟩
    · rw [hin, List.map_append, ← h.entries]
      exact Table.putEntry_of_forall_ne hfresh
    · rw [hin, List.length_append, ← h.containers]
      rfl
    · rw [hin, List.map_append, List.sum_append, List.map_singleton, List.sum_singleton, ← h.members,
        ← htallies.members.count_eq]
    · rw [hin, List.map_append, List.sum_append, List.map_singleton, List.sum_singleton, ← h.events,
        ← htallies.events.count_eq]
  · have hin : m.containersIn (hs ++ [k]) = m.containersIn hs := by simp [Model.containersIn, hc]
    rw [if_neg hc]
    refine ⟨hmodules, hexports, ?_, ?_, ?_, ?_⟩
    · rw [hin]
      exact h.entries
    · rw [hin]
      exact h.containers
    · rw [hin]
      exact h.members
    · rw [hin]
      exact h.events

/-- **The whole walk.** Each step keeps the counts, so they are right at its end. -/
private theorem countsWalk {hs : List Handle} (hhs : hs.Nodup)
    (hchildren : ∀ h ∈ hs, (m.get h).children.Nodup) (hnew : (m.exportedIn hs).Nodup) :
    CountsWalk m hs (hs.foldl (addReflection m) empty) := by
  induction hs using List.reverseRecOn with
  | nil => exact countsWalk_empty
  | append_singleton hs k ih =>
    obtain ⟨hhs, -, hdisjoint⟩ := List.nodup_append.mp hhs
    obtain ⟨hchildren, hlast⟩ := List.forall_mem_append.mp hchildren
    have hbefore : (m.exportedIn hs).Nodup := by
      rw [Model.exportedIn, List.filter_append, List.flatMap_append] at hnew
      exact (List.nodup_append.mp hnew).1
    rw [List.foldl_append, List.foldl_cons, List.foldl_nil]
    apply (ih hhs hchildren hbefore).addReflection _ (hlast k (List.mem_singleton_self k)) hnew
    exact fun hk ↦ hdisjoint k hk k (List.mem_singleton_self k) rfl

/-- In a tree no reflection is exported twice. -/
private theorem nodup_exportedIn_walk (hm : m.IsTree) : (m.exportedIn m.walk).Nodup := by
  rw [Model.exportedIn, List.nodup_flatMap]
  constructor
  · intro h hh
    apply List.Nodup.filter
    exact (hm.nodup_owned (List.mem_of_mem_filter hh)).of_append_right
  · apply (hm.nodup_walk.filter _).pairwise_of_forall_ne
    intro h hh k hk hne c hch hck
    -- a common child would know both as its owner
    have howner := hm.parent_owned h (List.mem_of_mem_filter hh) c
      (List.mem_append_right _ (List.mem_of_mem_filter hch))
    have howner' := hm.parent_owned k (List.mem_of_mem_filter hk) c
      (List.mem_append_right _ (List.mem_of_mem_filter hck))
    exact hne (Option.some.inj (howner.symm.trans howner'))

/-! ## Inherited events -/

/-- The events of one ancestor are counted on top of what was counted so far. -/
private theorem exists_tallies_inheritEvents {acc : Table String Handle × Nat} {names : List String}
    {own : Nat} (h : acc.1.Tallies id names (own + acc.2)) (events : Table String Handle) :
    ∃ more, (inheritEvents acc events).1.Tallies id (names ++ more)
      (own + (inheritEvents acc events).2) := by
  rw [inheritEvents]
  generalize events.entries = entries
  induction entries generalizing acc names with
  | nil => exact ⟨[], by rwa [List.append_nil]⟩
  | cons e entries ih =>
    have hput := h.putNew Function.injective_id e.1 e.2
    rw [List.foldl_cons]
    by_cases hthere : (acc.1.get? e.1).isSome = true
    · rw [if_pos hthere]
      exact ih h
    · have hnext : ((acc.1.putNew e.1 e.2, acc.2 + 1) : Table String Handle × Nat).1.Tallies id
          (names ++ [e.1]) (own + (acc.2 + 1)) := by
        rwa [show (acc.1.get? (id e.1)).isSome = (acc.1.get? e.1).isSome from rfl, if_neg hthere] at hput
      obtain ⟨more, hmore⟩ := ih hnext
      rw [if_neg hthere]
      exact ⟨e.1 :: more, by rwa [List.append_assoc, List.singleton_append] at hmore⟩

/-- All events that are found are counted, the own ones first. -/
private theorem exists_tallies_collectEvents (containers : Table Handle ContainerEntry)
    {entry : ContainerEntry} {names : List String} {own : Nat} (h : entry.events.Tallies id names own)
    (ancestors : List Handle) :
    ∃ more, (collectEvents containers entry ancestors).1.Tallies id (names ++ more)
      (own + (collectEvents containers entry ancestors).2) := by
  have hstart : ((entry.events, 0) : Table String Handle × Nat).1.Tallies id names
      (own + ((entry.events, 0) : Table String Handle × Nat).2) := h
  rw [collectEvents]
  clear h
  generalize ((entry.events, 0) : Table String Handle × Nat) = acc at hstart ⊢
  induction ancestors generalizing acc names with
  | nil => exact ⟨[], by rwa [List.append_nil]⟩
  | cons a as ih =>
    rw [List.foldl_cons]
    cases containers.get? a with
    | none => exact ih acc hstart
    | some e =>
      obtain ⟨more, hmore⟩ := exists_tallies_inheritEvents hstart e.events
      obtain ⟨rest, hrest⟩ := ih _ hmore
      exact ⟨more ++ rest, by rwa [List.append_assoc] at hrest⟩

/-- The events that a class inherits, with their count. -/
private theorem exists_inheritedNames_eq (hm : m.IsTree) {h : Handle} (hh : h ∈ m.containersIn m.walk) :
    ∃ names : Finset String, (build m).inheritedNames m h = ↑names ∧
      names.card = (completeEntry m (m.walk.foldl (addReflection m) empty).containers
        (h, ownEntry m h)).2 := by
  obtain ⟨hwalk, hc⟩ := List.mem_filter.mp hh
  have hchildren : (m.get h).children.Nodup := (hm.nodup_owned hwalk).of_append_right
  have hown : (ownEntry m h).events.Tallies id (m.eventNames (m.get h).children)
      (m.eventNames (m.get h).children).toFinset.card :=
    ⟨(talliesChildren hchildren).events.isSome_iff, rfl⟩
  obtain ⟨more, hall⟩ := exists_tallies_collectEvents
    (m.walk.foldl (addReflection m) empty).containers hown (ancestorsOf m h)
  refine ⟨(m.eventNames (m.get h).children ++ more).toFinset
    \ (m.eventNames (m.get h).children).toFinset, ?_, ?_⟩
  · ext name
    have hfound : (build m).event? h name = (collectEvents
        (m.walk.foldl (addReflection m) empty).containers (ownEntry m h) (ancestorsOf m h)).1.get? name := by
      rw [event?, get?_containers_build, if_pos ⟨hwalk, hc⟩, Option.bind_some]
      rfl
    rw [inheritedNames, Set.mem_ofPred_eq, hfound, Finset.mem_coe, Finset.mem_sdiff, List.mem_toFinset,
      List.mem_toFinset, ← hall.isSome_iff]
    rfl
  · have hsubset : (m.eventNames (m.get h).children).toFinset
        ⊆ (m.eventNames (m.get h).children ++ more).toFinset := by
      rw [List.toFinset_append]
      exact Finset.subset_union_left
    rw [Finset.card_sdiff_of_subset hsubset, ← hall.count_eq, Nat.add_sub_cancel_left]
    rfl

/-- **The counts of an index** are those of the model, in every project that is a tree. -/
theorem counts_build (hm : m.IsTree) : Counts m (build m) := by
  have hwalk := countsWalk hm.nodup_walk (fun h hh ↦ (hm.nodup_owned hh).of_append_right)
    (nodup_exportedIn_walk hm)
  have hinherited : ∀ h ∈ m.containersIn m.walk, ((build m).inheritedNames m h).Finite ∧
      ((build m).inheritedNames m h).ncard
        = (completeEntry m (m.walk.foldl (addReflection m) empty).containers (h, ownEntry m h)).2 := by
    intro h hh
    obtain ⟨names, heq, hcard⟩ := exists_inheritedNames_eq hm hh
    rw [heq, Set.ncard_coe_finset]
    exact ⟨names.finite_toSet, hcard⟩
  refine ⟨hwalk.modules, hwalk.exports.tallies.count_eq, hwalk.containers, hwalk.members, hwalk.events,
    fun h hh ↦ (hinherited h hh).1, ?_⟩
  rw [List.map_congr_left fun h hh ↦ (hinherited h hh).2, build, complete, hwalk.entries, List.sum]
  dsimp only
  rw [List.map_map, List.foldr_map, List.foldr_map]
  rfl

/-- Two modules of one path, each of which exports an `f`, and the second a class, which has a member `x` twice and
also as a static one, and an event `e` twice. It extends two interfaces that both have an event `k`; one of them
has an `e` as well and extends the other, which extends the class. -/
def repeated : Model where
  name := "p"
  roots := [0, 2]
  reflections := #[
    { Reflection.free 1 "a/b" .module none [] false with children := [1] },
    { Reflection.free 2 "f" .function none [] false with parent := some 0 },
    { Reflection.free 3 "a//b" .module none [] false with children := [3, 4, 5, 6] },
    { Reflection.free 4 "f" .function none [] false with parent := some 2 },
    { Reflection.free 5 "C" .classKind none [] false with
      bases := [5, 6], children := [7, 8, 9, 10, 11], parent := some 2 },
    { Reflection.free 6 "D" .interface none [] false with
      bases := [6], children := [12, 13], parent := some 2 },
    { Reflection.free 7 "E" .interface none [] false with
      bases := [4], children := [14], parent := some 2 },
    { Reflection.free 8 "x" .property none [] false with inheritedFrom := some 8, parent := some 4 },
    { Reflection.free 9 "x" .property none [] false with parent := some 4 },
    { Reflection.free 10 "x" .method none [] true with parent := some 4 },
    { Reflection.free 11 "e" .event none [] false with parent := some 4 },
    { Reflection.free 12 "e" .event none [] false with parent := some 4 },
    { Reflection.free 13 "e" .event none [] false with parent := some 5 },
    { Reflection.free 14 "k" .event none [] false with parent := some 5 },
    { Reflection.free 15 "k" .event none [] false with parent := some 6 }]

/-- The path counts twice as a module, and `f` once as an export. The two members and the two events of one name
count once, and `k` as inherited by the class, `e` by the interface without one. -/
theorem counts_repeated : repeated.IsTree ∧ (build repeated).stats = ⟨2, 4, 3, 2, 4, 2⟩ ∧
    Counts repeated (build repeated) := by
  have htree : repeated.IsTree := ⟨by decide, by decide, by decide, by decide⟩
  have hstats : (build repeated).stats = ⟨2, 4, 3, 2, 4, 2⟩ := by
    unfold build complete completeEntry
    -- the search is a recursion on a measure, which `decide` cannot follow; the line of descent goes by levels
    simp only [ancestorsOf_eq_descent]
    decide
  exact ⟨htree, hstats, counts_build htree⟩

end Index

end RefCheck
