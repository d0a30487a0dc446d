import RefCheck.Index.Resolve
import RefCheck.Proofs.Index.Tables
import RefCheck.Proofs.Model.Loaded

/-!
# Resolving with an index is scanning the model

An index answers from its tables, and for the scope of a reference it goes up the owners of the context. Over
a tree both are the scan of `Model.target?`: the three steps of resolving are compared one at a time, first
the scope, then what is named in it, and then both in a row.

Members and events are only kept for what the walk comes to, so the second step asks that the scope stands in
the walk. `mem_walk_of_scopeNamed?` gives this for every context that does.
-/

namespace RefCheck.Index

open RefCheck.Model

variable {m : Model}

/-! ## Scopes -/

theorem moduleOf?_eq_holdingModule? (hm : m.IsTree) {context : Handle} (hc : context ∈ m.walk) :
    m.moduleOf? context = m.holdingModule? context := by
  rw [moduleOf?, hm.enclosing_eq_holders hc, holdingModule?]

theorem containerOf?_eq_holdingContainer? (hm : m.IsTree) {context : Handle}
    (hc : context ∈ m.walk) : m.containerOf? context = m.holdingContainer? context := by
  rw [containerOf?, hm.enclosing_eq_holders hc, holdingContainer?]

/-- What a module exports stands in the walk, as the module does. -/
theorem mem_walk_of_exported? (hm : m.IsTree) {path : List String} {name : Option String}
    {h : Handle} (hh : m.exported? path name = some h) : h ∈ m.walk := by
  cases name with
  | none => exact (List.mem_filter.mp (List.mem_of_head? hh)).1
  | some name =>
    obtain ⟨k, hk, hchild⟩ := List.mem_flatMap.mp (List.mem_of_find?_eq_some hh)
    exact hm.mem_walk_of_owned (List.mem_filter.mp hk).1 (List.mem_append_right _ hchild)

theorem mem_walk_of_scopeNamed? (hm : m.IsTree) {context : Handle} {r : Reference} {h : Handle}
    (hh : m.scopeNamed? r context = some h) : h ∈ m.walk := by
  rw [scopeNamed?] at hh
  split at hh
  · exact mem_walk_of_exported? hm hh
  · split at hh
    · exact mem_walk_of_exported? hm hh
    · cases hh
  · -- holders are taken from the walk in the first place
    have hholder := (List.takeWhile_subset _) (List.mem_of_find?_eq_some hh)
    exact (List.mem_filter.mp (List.mem_reverse.mp hholder)).1

/-- The scope of a reference is found by scanning. -/
theorem scope?_build (hm : m.IsTree) {context : Handle} (hc : context ∈ m.walk) (r : Reference) :
    (build m).scope? m r context = m.scopeNamed? r context := by
  obtain ⟨raw, path, type, name, marker, label⟩ := r
  cases path with
  | some path => exact export?_build m path type
  | none =>
    cases type with
    | none => exact containerOf?_eq_holdingContainer? hm hc
    | some type =>
      rw [scope?, scopeNamed?, moduleOf?_eq_holdingModule? hm hc]
      cases m.holdingModule? context with
      | none => rfl
      | some h => exact export?_build m _ _

/-! ## Members and events -/

/-- A label picks a signature of what was found, if one is asked for. -/
private theorem select_eq_bind (found : Option Handle) (label : Option String) :
    (match found, label with
      | some member, some label => labelled? m member label
      | found, _ => found) = found.bind (m.signatureNamed? · label) := by
  cases found with
  | none => cases label <;> rfl
  | some member => cases label <;> rfl

/-- What a reference names in a scope is found by scanning. -/
theorem inScope?_build {scope : Handle} (hs : scope ∈ m.walk) (r : Reference) :
    (build m).inScope? m r scope = m.namedIn? r scope := by
  obtain ⟨raw, path, type, name, marker, label⟩ := r
  cases marker with
  | none => rfl
  | inst =>
    have hmember := member?_build hs (name.getD "") false
    exact (select_eq_bind _ _).trans (congrArg (·.bind (m.signatureNamed? · label)) hmember)
  | static =>
    have hmember := member?_build hs (name.getD "") true
    exact (select_eq_bind _ _).trans (congrArg (·.bind (m.signatureNamed? · label)) hmember)
  | event => exact event?_build hs _

/-! ## References -/

/-- One step after the other is the same by table and by scanning. -/
theorem scope?_bind_build (hm : m.IsTree) {context : Handle} (hc : context ∈ m.walk)
    (r : Reference) :
    ((build m).scope? m r context).bind ((build m).inScope? m r)
      = (m.scopeNamed? r context).bind (m.namedIn? r) := by
  rw [scope?_build hm hc]
  cases hscope : m.scopeNamed? r context with
  | none => rfl
  | some scope => exact inScope?_build (mem_walk_of_scopeNamed? hm hscope) r

/-- **Resolving is scanning.** For a tree, and from every declaration in it, a reference resolves to what a
scan of the model finds for it, and to nothing where the scan finds nothing; bases may lead back, out of the
project, or to what is no class. -/
theorem resolve?_build_eq_target? (hm : m.IsTree) {context : Handle} (hc : context ∈ m.walk)
    (r : Reference) : (build m).resolve? m r context = m.target? r context := by
  rw [resolve?, target?]
  by_cases hloose : r.isLoose = true
  · rw [if_pos hloose, if_pos hloose]
  · rw [if_neg hloose, if_neg hloose, scope?_bind_build hm hc]

/-- Two classes of one module that extend each other, the second with an event. -/
def entwined : Model where
  name := "p"
  roots := [0]
  reflections := #[
    { Reflection.free 1 "m" .module none [] false with children := [1, 2] },
    { Reflection.free 2 "A" .classKind none [] false with bases := [2], parent := some 0 },
    { Reflection.free 3 "B" .classKind none [] false with
      bases := [1], children := [3], parent := some 0 },
    { Reflection.free 4 "e" .event none [] false with parent := some 2 }]

theorem isTree_entwined : entwined.IsTree where
  finite := by decide
  nodup_walk := by decide
  parent_root := by decide
  parent_owned := by decide

/-- From the first of two classes that extend each other, the event of the second is found. -/
theorem resolve?_entwined :
    entwined.IsTree ∧ 1 ∈ entwined.walk ∧
      (build entwined).resolve? entwined ⟨"#event:e", none, none, some "e", .event, none⟩ 1
        = some 3 :=
  ⟨isTree_entwined, by decide,
    (resolve?_build_eq_target? isTree_entwined (by decide) _).trans (by decide)⟩

end RefCheck.Index
