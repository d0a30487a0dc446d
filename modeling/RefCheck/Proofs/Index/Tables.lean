import Mathlib.Data.List.Induction
import RefCheck.Proofs.Index.Descent

/-!
# What the tables of an index hold

An index is built in one pass that fills two tables, and every entry of them is decided by what was there
before. Here each table is read back as a search over the model: what a module exports
(`export?_build`), the members of a class (`member?_build`), and the events that it declares or inherits
(`event?_build`).

## First come, first served

Exports and events are filled by `Table.putNew` only, so such a table answers as the list of everything that
was put into it does (`get?_foldl_putNew`): the first entry of a key wins. What remains for each table is to
name that list. Members are different, since an own member replaces an inherited copy; there the invariant is
that the table holds the best member *so far*, and the list of children is read from its end.
-/

namespace RefCheck

private theorem findSome?_filter {α β : Type} (items : List α) (keep : α → Bool)
    (f : α → Option β) :
    (items.filter keep).findSome? f = items.findSome? fun a ↦ if keep a then f a else none := by
  induction items with
  | nil => rfl
  | cons a items ih =>
    rw [List.findSome?_cons, ← ih]
    by_cases hk : keep a = true
    · rw [List.filter_cons_of_pos hk, if_pos hk, List.findSome?_cons]
    · rw [List.filter_cons_of_neg hk, if_neg hk]

namespace Table

variable {κ α : Type} [DecidableEq κ]

theorem get?_cons (k key : κ) (value : α) (entries : List (κ × α)) :
    (Table.mk ((k, value) :: entries)).get? key
      = if key = k then some value else (Table.mk entries).get? key := by
  rw [get?, get?, List.lookup_cons]
  by_cases hk : key = k
  · rw [if_pos hk, beq_iff_eq.mpr hk]
  · rw [if_neg hk, beq_eq_false_iff_ne.mpr hk]

/-- A table that is filled by new keys only answers as the list of its entries in the order in which they
came. -/
theorem get?_foldl_putNew (entries : List (κ × α)) (t : Table κ α) (key : κ) :
    (entries.foldl (fun t e ↦ t.putNew e.1 e.2) t).get? key
      = (t.get? key).or ((Table.mk entries).get? key) := by
  induction entries generalizing t with
  | nil => exact (Option.or_none).symm
  | cons e entries ih =>
    obtain ⟨k, v⟩ := e
    rw [List.foldl_cons, ih, get?_putNew, get?_cons]
    by_cases hk : key = k
    · subst hk
      rw [if_pos rfl, if_pos rfl]
      cases t.get? key <;> rfl
    · rw [if_neg hk, if_neg hk]

/-- Looking up in a table that has one entry for each of some items. -/
theorem get?_map (items : List α) (name : α → κ) (key : κ) :
    (Table.mk (items.map fun a ↦ (name a, a))).get? key = items.find? fun a ↦ name a = key := by
  induction items with
  | nil => rfl
  | cons a items ih =>
    rw [List.map_cons, get?_cons, ih, List.find?_cons]
    by_cases hk : key = name a
    · rw [if_pos hk, decide_eq_true hk.symm]
    · rw [if_neg hk, decide_eq_false (Ne.symm hk)]

/-- Looking up in a table that has some entries for each of some items. -/
theorem get?_flatMap {β : Type} (items : List β) (entries : β → List (κ × α)) (key : κ) :
    (Table.mk (items.flatMap entries)).get? key
      = items.findSome? fun a ↦ (Table.mk (entries a)).get? key := by
  induction items with
  | nil => rfl
  | cons a items ih =>
    rw [List.flatMap_cons, get?, List.lookup_append, List.findSome?_cons, ← ih]
    show ((Table.mk (entries a)).get? key).or _ = _
    cases (Table.mk (entries a)).get? key <;> rfl

/-- Looking up in a table whose entries were changed, but for their keys. -/
theorem get?_map_entries {β : Type} (entries : List (κ × α)) {change : κ × α → κ × β}
    (hkey : ∀ e, (change e).1 = e.1) (key : κ) :
    (Table.mk (entries.map change)).get? key
      = ((Table.mk entries).get? key).map fun v ↦ (change (key, v)).2 := by
  induction entries with
  | nil => rfl
  | cons e entries ih =>
    obtain ⟨k, v⟩ := e
    have hchange : change (k, v) = (k, (change (k, v)).2) := Prod.ext (hkey (k, v)) rfl
    rw [List.map_cons, hchange, get?_cons, get?_cons, ih]
    by_cases hk : key = k
    · rw [if_pos hk, if_pos hk, hk, Option.map_some]
    · rw [if_neg hk, if_neg hk]

end Table

namespace Index

variable {m : Model}

/-! ## Exports -/

/-- What a reflection puts into the table of exports: a module puts itself, and its children other than
modules. -/
private def exportEntries (m : Model) (h : Handle) : List (ExportKey × Handle) :=
  if (m.get h).isModule then
    (((m.get h).modulePath, none), h) ::
      ((m.get h).children.filter fun c ↦ !(m.get c).isModule).map fun c ↦
        (((m.get h).modulePath, some (m.get c).name), c)
  else []

private theorem exports_foldl_addExport (path : List String) (cs : List Handle) (ix : Index) :
    (cs.foldl (addExport m path) ix).exports
      = ((cs.filter fun c ↦ !(m.get c).isModule).map fun c ↦
          ((path, some (m.get c).name), c)).foldl (fun t e ↦ t.putNew e.1 e.2) ix.exports := by
  induction cs generalizing ix with
  | nil => rfl
  | cons c cs ih =>
    rw [List.foldl_cons, ih]
    by_cases hc : (m.get c).isModule = true
    · rw [addExport, if_pos hc, List.filter_cons_of_neg (by simp [hc])]
    · rw [addExport, if_neg hc, List.filter_cons_of_pos (by simp [hc]), List.map_cons,
        List.foldl_cons]

private theorem containers_foldl_addExport (path : List String) (cs : List Handle) (ix : Index) :
    (cs.foldl (addExport m path) ix).containers = ix.containers := by
  induction cs generalizing ix with
  | nil => rfl
  | cons c cs ih =>
    rw [List.foldl_cons, ih, addExport]
    split <;> rfl

private theorem exports_addReflection (ix : Index) (h : Handle) :
    (addReflection m ix h).exports
      = (exportEntries m h).foldl (fun t e ↦ t.putNew e.1 e.2) ix.exports := by
  have hmodule : (if (m.get h).isModule then addModule m ix h else ix).exports
      = (exportEntries m h).foldl (fun t e ↦ t.putNew e.1 e.2) ix.exports := by
    by_cases hm : (m.get h).isModule = true
    · rw [if_pos hm, exportEntries, if_pos hm]
      exact exports_foldl_addExport _ _ _
    · rw [if_neg hm, exportEntries, if_neg hm, List.foldl_nil]
  rw [← hmodule, addReflection]
  split <;> rfl

/-- The table of exports holds everything that modules put into it, in the order of the walk. -/
private theorem exports_build (m : Model) : (build m).exports
    = (m.walk.flatMap (exportEntries m)).foldl (fun t e ↦ t.putNew e.1 e.2) .empty := by
  have hfold : ∀ (hs : List Handle) (ix : Index), (hs.foldl (addReflection m) ix).exports
      = (hs.flatMap (exportEntries m)).foldl (fun t e ↦ t.putNew e.1 e.2) ix.exports := by
    intro hs
    induction hs with
    | nil => exact fun ix ↦ rfl
    | cons h hs ih =>
      intro ix
      rw [List.foldl_cons, ih, exports_addReflection, List.flatMap_cons, List.foldl_append]
  exact hfold m.walk empty

private theorem get?_exportEntries (h : Handle) (path : List String) (name : Option String) :
    (Table.mk (exportEntries m h)).get? (path, name)
      = if (m.get h).isModule && (m.get h).modulePath == path then
          match name with
          | none => some h
          | some name => (m.get h).children.find? fun c ↦
              !(m.get c).isModule && (m.get c).name == name
        else none := by
  by_cases hm : (m.get h).isModule = true
  · rw [exportEntries, if_pos hm, hm, Bool.true_and, Table.get?_cons, Table.get?_map,
      List.find?_filter]
    by_cases hp : (m.get h).modulePath = path
    · cases name with
      | none => simp [hp]
      | some name =>
        simp only [hp, beq_self_eq_true, if_true, Prod.mk.injEq, reduceCtorEq, and_false, if_false,
          true_and, Option.some.injEq]
        refine congrArg (List.find? · _) (funext fun c ↦ ?_)
        rw [Bool.eq_iff_iff]
        simp
    · simp [hp, Ne.symm hp]
  · rw [exportEntries, if_neg hm, if_neg (by simp [hm])]
    rfl

/-- **Exports are found by scanning.** What the index holds for a path and a name is the first module with
the path, or the first child of this name that a module with the path exports. -/
theorem export?_build (m : Model) (path : List String) (name : Option String) :
    (build m).export? path name = m.exported? path name := by
  rw [export?, exports_build, Table.get?_foldl_putNew, Table.get?_empty, Option.none_or,
    Table.get?_flatMap]
  simp only [get?_exportEntries]
  cases name with
  | none =>
    rw [Model.exported?, Model.modulesAt, List.head?_filter, List.find?_eq_findSome?_guard]
    rfl
  | some name =>
    rw [Model.exported?, Model.modulesAt, List.find?_flatMap, findSome?_filter]

/-! ## Events -/

/-- The tables of a class before the events of its ancestors are added. -/
def ownEntry (m : Model) (h : Handle) : ContainerEntry :=
  ((m.get h).children.foldl (addToContainer m) (ContainerEntry.empty, 0, 0)).1

private theorem events_addToContainer (acc : Counted) (c : Handle) :
    (addToContainer m acc c).1.events
      = if (m.get c).kind.meets .event then acc.1.events.putNew (m.get c).name c
        else acc.1.events := by
  obtain ⟨entry, members, events⟩ := acc
  rw [addToContainer]
  split
  · rfl
  · split
    · rw [addMember]
      split
      · rfl
      · split <;> rfl
    · rfl

/-- The table of own events of a class is a search among its children. -/
theorem get?_events_ownEntry (h : Handle) (name : String) :
    (ownEntry m h).events.get? name = m.declaredEvent? name h := by
  have hfold : ∀ (cs : List Handle) (acc : Counted), (cs.foldl (addToContainer m) acc).1.events
      = ((cs.filter fun c ↦ (m.get c).kind.meets .event).map fun c ↦ ((m.get c).name, c)).foldl
          (fun t e ↦ t.putNew e.1 e.2) acc.1.events := by
    intro cs
    induction cs with
    | nil => exact fun acc ↦ rfl
    | cons c cs ih =>
      intro acc
      rw [List.foldl_cons, ih, events_addToContainer, List.filter_cons]
      by_cases hc : (m.get c).kind.meets .event = true
      · rw [if_pos hc, if_pos hc, List.map_cons, List.foldl_cons]
      · rw [if_neg hc, if_neg hc]
  rw [ownEntry, hfold, Table.get?_foldl_putNew, Table.get?_map, List.find?_filter,
    Model.declaredEvent?]
  refine congrArg (List.find? · _) (funext fun c ↦ ?_)
  rw [Bool.eq_iff_iff]
  simp

/-! ## Members -/

/-- The first of some members that is declared in its class, or the first at all. -/
private def firstOwn? (m : Model) (cs : List Handle) : Option Handle :=
  (cs.find? fun c ↦ !(m.get c).isInherited).or cs.head?

/-- Which of two members of one name stays, the one that is there or the one that comes. -/
private def stays (m : Model) (c : Handle) : Option Handle → Handle
  | none => c
  | some e => if (m.get e).isInherited && !(m.get c).isInherited then c else e

/-- One more member at the end only matters if all before it are inherited. -/
private theorem firstOwn?_concat (cs : List Handle) (c : Handle) :
    firstOwn? m (cs ++ [c]) = some (stays m c (firstOwn? m cs)) := by
  rw [firstOwn?, firstOwn?, List.find?_append, List.head?_append]
  cases hf : cs.find? fun c ↦ !(m.get c).isInherited with
  | some e =>
    have he := List.find?_some hf
    simp only [Bool.not_eq_true'] at he
    simp [stays, he]
  | none =>
    cases cs with
    | nil => by_cases hc : (m.get c).isInherited = true <;> simp [stays, hc]
    | cons e cs =>
      have he : (m.get e).isInherited = true := by
        simpa using List.find?_eq_none.mp hf e List.mem_cons_self
      by_cases hc : (m.get c).isInherited = true <;> simp [stays, he, hc]

/-- The marker under which members of a class are filed. -/
private def markerOf (isStatic : Bool) : Marker := if isStatic then .static else .inst

private theorem markerOf_inj {a b : Bool} : markerOf a = markerOf b ↔ a = b := by
  cases a <;> cases b <;> simp [markerOf]

/-- A child of a class is a member with a name, static or not. -/
private def isNamed (m : Model) (name : String) (isStatic : Bool) (c : Handle) : Bool :=
  (m.get c).kind.meets .member && !(m.get c).kind.meets .event && (m.get c).name == name &&
    (m.get c).isStatic == isStatic

private theorem members_addMember (acc : Counted) (c : Handle) (key : String × Marker) :
    (addMember m acc c).1.members.get? key
      = if key = ((m.get c).name, memberMarker (m.get c)) then
          some (stays m c (acc.1.members.get? key))
        else acc.1.members.get? key := by
  obtain ⟨entry, members, events⟩ := acc
  rw [addMember]
  split
  · next hnone =>
    rw [Table.get?_put]
    split
    · next hkey => rw [hkey, hnone, stays]
    · rfl
  · next e hsome =>
    split
    · next hbetter =>
      rw [Table.get?_put]
      split
      · next hkey => rw [hkey, hsome, stays, if_pos hbetter]
      · rfl
    · next hworse =>
      split
      · next hkey => rw [hkey, hsome, stays, if_neg hworse]
      · rfl

private theorem members_addToContainer (acc : Counted) (c : Handle) (name : String)
    (isStatic : Bool) :
    (addToContainer m acc c).1.members.get? (name, markerOf isStatic)
      = if isNamed m name isStatic c then
          some (stays m c (acc.1.members.get? (name, markerOf isStatic)))
        else acc.1.members.get? (name, markerOf isStatic) := by
  rw [addToContainer]
  by_cases hevent : (m.get c).kind.meets .event = true
  · rw [if_pos hevent, if_neg (by simp [isNamed, hevent])]
    rfl
  by_cases hmember : (m.get c).kind.meets .member = true
  · have hkey : isNamed m name isStatic c = true
        ↔ (name, markerOf isStatic) = ((m.get c).name, memberMarker (m.get c)) := by
      rw [Prod.mk.injEq, show memberMarker (m.get c) = markerOf (m.get c).isStatic from rfl,
        markerOf_inj, isNamed, hmember, Bool.eq_false_iff.mpr hevent]
      simp only [Bool.not_false, Bool.true_and, Bool.and_eq_true, beq_iff_eq]
      exact and_congr eq_comm eq_comm
    simp only [if_neg hevent, if_pos hmember, members_addMember, hkey]
  · rw [if_neg hevent, if_neg hmember, if_neg (by simp [isNamed, hmember])]

/-- The table of members of a class is a search among its children. -/
theorem get?_members_ownEntry (h : Handle) (name : String) (isStatic : Bool) :
    (ownEntry m h).members.get? (name, markerOf isStatic)
      = firstOwn? m (m.membersNamed h name isStatic) := by
  have hfold : ∀ cs : List Handle,
      (cs.foldl (addToContainer m) (ContainerEntry.empty, 0, 0)).1.members.get?
        (name, markerOf isStatic) = firstOwn? m (cs.filter (isNamed m name isStatic)) := by
    intro cs
    -- from the end: the last child decides about the best member before it
    induction cs using List.reverseRecOn with
    | nil => rfl
    | append_singleton cs c ih =>
      rw [List.foldl_append, List.foldl_cons, List.foldl_nil, members_addToContainer, ih,
        List.filter_append]
      by_cases hc : isNamed m name isStatic c = true
      · rw [if_pos hc, List.filter_cons_of_pos hc, List.filter_nil, firstOwn?_concat]
      · rw [if_neg hc, List.filter_cons_of_neg hc, List.filter_nil, List.append_nil]
  exact hfold _

/-! ## Classes and interfaces -/

private theorem containers_addReflection (ix : Index) (h : Handle) :
    (addReflection m ix h).containers
      = if (m.get h).isContainer then ix.containers.put h (ownEntry m h) else ix.containers := by
  have hmodule : (if (m.get h).isModule then addModule m ix h else ix).containers
      = ix.containers := by
    split
    · exact containers_foldl_addExport _ _ _
    · rfl
  rw [addReflection]
  by_cases hc : (m.get h).isContainer = true
  · rw [if_pos hc, if_pos hc, ← hmodule]
    rfl
  · rw [if_neg hc, if_neg hc, hmodule]

/-- The classes and interfaces that were walked over are in the table, with what they declare. -/
private theorem get?_containers_foldl (hs : List Handle) (ix : Index) (k : Handle) :
    (hs.foldl (addReflection m) ix).containers.get? k
      = if k ∈ hs ∧ (m.get k).isContainer then some (ownEntry m k) else ix.containers.get? k := by
  induction hs generalizing ix with
  | nil => simp
  | cons h hs ih =>
    rw [List.foldl_cons, ih, containers_addReflection]
    -- a class that is walked over twice gets the same entry again
    by_cases hk : k = h
    · subst hk
      by_cases hc : (m.get k).isContainer = true
      · simp [hc, Table.get?_put]
      · simp [hc]
    · by_cases hc : (m.get h).isContainer = true
      · simp [hc, hk, Table.get?_put]
      · simp [hc, hk]

/-! ## Events of ancestors -/

private theorem get?_inheritEvents (acc : Table String Handle × Nat) (events : Table String Handle)
    (name : String) :
    (inheritEvents acc events).1.get? name = (acc.1.get? name).or (events.get? name) := by
  have hfold : ∀ (entries : List (String × Handle)) (acc : Table String Handle × Nat),
      (entries.foldl (fun acc e ↦
        if (acc.1.get? e.1).isSome then acc else (acc.1.putNew e.1 e.2, acc.2 + 1)) acc).1
        = entries.foldl (fun t e ↦ t.putNew e.1 e.2) acc.1 := by
    intro entries
    induction entries with
    | nil => exact fun acc ↦ rfl
    | cons e entries ih =>
      intro acc
      rw [List.foldl_cons, ih, List.foldl_cons]
      split
      · next hthere => rw [Table.putNew, if_pos hthere]
      · rfl
  rw [inheritEvents, hfold, Table.get?_foldl_putNew]

/-- The first that declares an event counts: the class itself, or the first of its ancestors. -/
private theorem get?_collectEvents (containers : Table Handle ContainerEntry)
    (entry : ContainerEntry) (ancestors : List Handle) (name : String) :
    (collectEvents containers entry ancestors).1.get? name
      = (entry.events.get? name).or (ancestors.findSome? fun a ↦
          (containers.get? a).bind fun e ↦ e.events.get? name) := by
  -- whatever the fold starts from, what it has comes first
  have hstart : (entry.events.get? name) = ((entry.events, 0) : Table String Handle × Nat).1.get? name := rfl
  rw [collectEvents, hstart]
  generalize ((entry.events, 0) : Table String Handle × Nat) = acc
  induction ancestors generalizing acc with
  | nil => exact (Option.or_none).symm
  | cons a as ih =>
    rw [List.foldl_cons, ih, List.findSome?_cons]
    cases ha : containers.get? a with
    | none => rfl
    | some e =>
      simp only [Option.bind_some, get?_inheritEvents, Option.or_assoc]
      cases e.events.get? name <;> rfl

/-! ## The whole index -/

/-- What the index has for a class or interface of the project, and only for those. -/
theorem get?_containers_build (m : Model) (k : Handle) :
    (build m).containers.get? k
      = if k ∈ m.walk ∧ (m.get k).isContainer then
          some (completeEntry m (m.walk.foldl (addReflection m) empty).containers
            (k, ownEntry m k)).1.2
        else none := by
  have hcomplete : (build m).containers
      = Table.mk ((m.walk.foldl (addReflection m) empty).containers.entries.map fun e ↦
          (completeEntry m (m.walk.foldl (addReflection m) empty).containers e).1) := by
    rw [build, complete]
    dsimp only
    rw [List.map_map]
    rfl
  have hkey : ∀ e, (completeEntry m (m.walk.foldl (addReflection m) empty).containers e).1.1
      = e.1 := fun e ↦ rfl
  have hfold := get?_containers_foldl m.walk empty k (m := m)
  rw [hcomplete, Table.get?_map_entries _ hkey]
  rw [show Table.mk (m.walk.foldl (addReflection m) empty).containers.entries
    = (m.walk.foldl (addReflection m) empty).containers from rfl, hfold]
  split
  · rfl
  · rfl

/-- What the walk does not come to has no tables. -/
theorem get?_containers_eq_none {h : Handle} (hh : h ∉ m.walk) :
    (build m).containers.get? h = none := by
  rw [get?_containers_build, if_neg fun hboth ↦ hh hboth.1]

/-- **Members are found by scanning** the children of a class of the project. -/
theorem member?_build {h : Handle} (hh : h ∈ m.walk) (name : String) (isStatic : Bool) :
    (build m).member? h name (if isStatic then .static else .inst)
      = m.memberNamed? h name isStatic := by
  rw [member?, get?_containers_build, Model.memberNamed?]
  by_cases hc : (m.get h).isContainer = true
  · rw [if_pos ⟨hh, hc⟩, if_pos hc, Option.bind_some]
    exact get?_members_ownEntry h name isStatic
  · rw [if_neg fun hboth ↦ hc hboth.2, if_neg hc, Option.bind_none]

/-- **Events are found by scanning** the children of a class of the project, and of the classes on its line
of descent. -/
theorem event?_build {h : Handle} (hh : h ∈ m.walk) (name : String) :
    (build m).event? h name = m.eventNamed? h name := by
  rw [event?, get?_containers_build, Model.eventNamed?]
  by_cases hc : (m.get h).isContainer = true
  · rw [if_pos ⟨hh, hc⟩, if_pos hc, Option.bind_some]
    show (collectEvents _ (ownEntry m h) (ancestorsOf m h)).1.get? name = _
    rw [get?_collectEvents, get?_events_ownEntry, ancestorsOf_eq_descent, List.findSome?_cons,
      findSome?_filter]
    have hinherited : (fun a ↦ ((m.walk.foldl (addReflection m) empty).containers.get? a).bind
        fun e ↦ e.events.get? name)
        = fun a ↦ if m.walk.contains a && (m.get a).isContainer then m.declaredEvent? name a
            else none := by
      funext a
      rw [get?_containers_foldl]
      by_cases ha : a ∈ m.walk ∧ (m.get a).isContainer
      · rw [if_pos ha, Option.bind_some, get?_events_ownEntry, if_pos (by simpa using ha)]
      · rw [if_neg ha, if_neg (by simpa using ha)]
        rfl
    rw [hinherited]
    cases m.declaredEvent? name h <;> rfl
  · rw [if_neg fun hboth ↦ hc hboth.2, if_neg hc, Option.bind_none]

/-- **Ancestors are the line of descent** of a class of the project. -/
theorem ancestors_build {h : Handle} (hh : h ∈ m.walk) (hc : (m.get h).isContainer = true) :
    (build m).ancestors h = m.descent h := by
  rw [ancestors, get?_containers_build, if_pos ⟨hh, hc⟩]
  exact ancestorsOf_eq_descent m h

end Index

end RefCheck
