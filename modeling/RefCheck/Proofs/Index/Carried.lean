import Mathlib.Data.List.Flatten
import Mathlib.Data.List.Perm.Basic
import RefCheck.Proofs.Index.Resolution
import RefCheck.Proofs.Model.Embedding

/-!
# References in a model inside another

A reference that resolves in a model resolves in every model around it, and to the image of what it named.
One thing has to be asked: `KeepsExports` says that what a module exports there is the image of what it
exported before. Everything else about a reference is found by following links, and an embedding carries it
over (`Embeds.namedIn?_image`).

The line of descent needs most care. Its search keeps a list of what is unseen, which is longer in the larger
model; but the search only asks it about images, and there both lists agree.
-/

namespace RefCheck

open RefCheck.Index

namespace Model

variable {m m' : Model} {σ : Handle → Handle}

/-- What a module exports in the one model, it exports in the other. -/
def KeepsExports (σ : Handle → Handle) (m m' : Model) : Prop :=
  ∀ path name h, m.exported? path name = some h → m'.exported? path name = some (σ h)

/-- No path is that of two modules. -/
def DistinctPaths (m : Model) : Prop :=
  ∀ h ∈ m.walk, ∀ k ∈ m.walk, (m.get h).isModule = true → (m.get k).isModule = true →
    (m.get h).modulePath = (m.get k).modulePath → h = k

/-! ## Exports -/

theorem mem_modulesAt {path : List String} {h : Handle} : h ∈ m.modulesAt path ↔
    h ∈ m.walk ∧ (m.get h).isModule = true ∧ (m.get h).modulePath = path := by
  rw [modulesAt, List.mem_filter, Bool.and_eq_true, beq_iff_eq]

/-- Exports are kept if, of the modules with a path, the images of those that were there come first and in
their order. -/
theorem Embeds.keepsExports (he : m.Embeds σ m')
    (hfirst : ∀ path, ∃ more, m'.modulesAt path = (m.modulesAt path).map σ ++ more) :
    KeepsExports σ m m' := by
  intro path name h hh
  obtain ⟨more, hmore⟩ := hfirst path
  cases name with
  | none =>
    rw [exported?] at hh
    rw [exported?, hmore, List.head?_append, List.head?_map, hh]
    rfl
  | some name =>
    have hwalk : ∀ k ∈ m.modulesAt path, k ∈ m.walk := fun k hk ↦ (mem_modulesAt.mp hk).1
    rw [exported?] at hh
    rw [exported?, hmore, List.flatMap_append, List.find?_append]
    -- what the images export are the images of what the modules export
    have hchildren : ((m.modulesAt path).map σ).flatMap (fun k ↦ (m'.get k).children)
        = ((m.modulesAt path).flatMap fun k ↦ (m.get k).children).map σ := by
      rw [List.flatMap_map, List.map_flatMap]
      exact List.flatMap_congr fun k hk ↦ he.children_image (hwalk k hk)
    have hfound : (((m.modulesAt path).flatMap fun k ↦ (m.get k).children).map σ).find?
          (fun c ↦ !(m'.get c).isModule && (m'.get c).name == name)
        = (((m.modulesAt path).flatMap fun k ↦ (m.get k).children).find?
            fun c ↦ !(m.get c).isModule && (m.get c).name == name).map σ := by
      refine find?_map_of_forall fun c hc ↦ ?_
      obtain ⟨k, hk, hc⟩ := List.mem_flatMap.mp hc
      rw [he.get_eq c (he.closed.mem_walk_of_child (hwalk k hk) hc)]
      rfl
    rw [hchildren, hfound, hh]
    rfl

/-- A model with more at the end of its walk keeps its exports. -/
theorem Embeds.keepsExports_of_append (he : m.Embeds (fun h ↦ h) m') {added : List Handle}
    (hwalk : m'.walk = m.walk ++ added) : KeepsExports (fun h ↦ h) m m' := by
  refine he.keepsExports fun path ↦
    ⟨added.filter fun h ↦ (m'.get h).isModule && (m'.get h).modulePath == path, ?_⟩
  rw [modulesAt, hwalk, List.filter_append, List.map_id', modulesAt]
  congr 1
  refine List.filter_congr fun h hh ↦ ?_
  rw [he.get_eq h hh, Reflection.relink_self]

/-- If no path is that of two modules then exports are kept wherever modules stand. -/
theorem Embeds.keepsExports_of_distinctPaths (he : m.Embeds σ m') (hm : m.DistinctPaths)
    (hm' : m'.DistinctPaths) : KeepsExports σ m m' := by
  have hsingle : ∀ {m : Model} {path : List String} {h : Handle}, m.IsTree → m.DistinctPaths →
      h ∈ m.modulesAt path → m.modulesAt path = [h] := by
    intro m path h htree hdistinct hh
    have hperm : (m.modulesAt path).Perm [h] := by
      refine (List.perm_ext_iff_of_nodup (htree.nodup_walk.filter _)
        (List.nodup_singleton h)).mpr fun k ↦ ?_
      rw [List.mem_singleton]
      constructor
      · intro hk
        obtain ⟨hhw, hmodule, hpath⟩ := mem_modulesAt.mp hh
        obtain ⟨hkw, hmodule', hpath'⟩ := mem_modulesAt.mp hk
        exact hdistinct k hkw h hhw hmodule' hmodule (hpath'.trans hpath.symm)
      · rintro rfl
        exact hh
    exact hperm.eq_singleton
  refine he.keepsExports fun path ↦ ?_
  cases hat : m.modulesAt path with
  | nil => exact ⟨m'.modulesAt path, rfl⟩
  | cons h rest =>
    have hh : h ∈ m.modulesAt path := by
      rw [hat]
      exact List.mem_cons_self
    have himage : σ h ∈ m'.modulesAt path := by
      obtain ⟨hhw, hmodule, hpath⟩ := mem_modulesAt.mp hh
      refine mem_modulesAt.mpr ⟨he.mem_walk h hhw, (he.isModule_image hhw).trans hmodule, ?_⟩
      rw [he.get_eq h hhw]
      exact hpath
    rw [← hat, hsingle he.closed.toIsTree hm hh, hsingle he.closed_image.toIsTree hm' himage]
    exact ⟨[], rfl⟩

/-- Paths stay distinct in a model that is found again elsewhere. -/
theorem Embeds.distinctPaths (he : m.Embeds σ m') (hm' : m'.DistinctPaths) : m.DistinctPaths := by
  intro h hh k hk hmodule hmodule' hpath
  refine he.injOn h hh k hk (hm' (σ h) (he.mem_walk h hh) (σ k) (he.mem_walk k hk) ?_ ?_ ?_)
  · exact (he.isModule_image hh).trans hmodule
  · exact (he.isModule_image hk).trans hmodule'
  · rw [he.get_eq h hh, he.get_eq k hk]
    exact hpath

/-! ## Descent -/

/-- In a closed model the search for bases stays in the walk. -/
theorem IsClosed.mem_walk_of_searchBases (hm : m.IsClosed) {queue unseen : List Handle}
    (hqueue : ∀ b ∈ queue, b ∈ m.walk) : ∀ b ∈ searchBases m queue unseen, b ∈ m.walk := by
  induction queue, unseen using searchBases.induct m with
  | case1 unseen =>
    rw [searchBases_nil]
    exact fun b hb ↦ (List.not_mem_nil hb).elim
  | case2 unseen b rest hb ih =>
    obtain ⟨hbw, hrest⟩ := List.forall_mem_cons.mp hqueue
    rw [searchBases_cons_of_mem hb, List.forall_mem_cons]
    refine ⟨hbw, ih fun c hc ↦ ?_⟩
    rcases List.mem_append.mp hc with hc | hc
    · exact hrest c hc
    · exact hm.mem_walk_of_base b hbw c hc
  | case3 unseen b rest hb ih =>
    rw [searchBases_cons_of_not_mem hb]
    exact ih (List.forall_mem_cons.mp hqueue).2

theorem IsClosed.mem_walk_of_descent (hm : m.IsClosed) {h a : Handle} (hh : h ∈ m.walk)
    (ha : a ∈ m.descent h) : a ∈ m.walk := by
  rw [← ancestorsOf_eq_descent] at ha
  exact hm.mem_walk_of_searchBases (hm.mem_walk_of_base h hh) a ha

/-! ## What a reference can name -/

theorem mem_children_of_memberNamed? {h c : Handle} {name : String} {isStatic : Bool}
    (hc : m.memberNamed? h name isStatic = some c) : c ∈ (m.get h).children := by
  have hmember : c ∈ m.membersNamed h name isStatic := by
    rw [memberNamed?] at hc
    split at hc
    · rcases Option.or_eq_some_iff.mp hc with hc | ⟨-, hc⟩
      · exact List.mem_of_find?_eq_some hc
      · exact List.mem_of_head? hc
    · cases hc
  exact List.mem_of_mem_filter hmember

theorem IsTree.mem_walk_of_memberNamed? (hm : m.IsTree) {h c : Handle} {name : String}
    {isStatic : Bool} (hh : h ∈ m.walk) (hc : m.memberNamed? h name isStatic = some c) :
    c ∈ m.walk := hm.mem_walk_of_child hh (mem_children_of_memberNamed? hc)

theorem IsTree.mem_walk_of_signatureNamed? (hm : m.IsTree) {h s : Handle} {label : Option String}
    (hh : h ∈ m.walk) (hs : m.signatureNamed? h label = some s) : s ∈ m.walk := by
  cases label with
  | none =>
    cases hs
    exact hh
  | some label => exact hm.mem_walk_of_signature hh (List.mem_of_find?_eq_some hs)

theorem IsClosed.mem_walk_of_eventNamed? (hm : m.IsClosed) {h e : Handle} {name : String}
    (hh : h ∈ m.walk) (hevent : m.eventNamed? h name = some e) : e ∈ m.walk := by
  rw [eventNamed?] at hevent
  split at hevent
  · obtain ⟨a, ha, he⟩ := List.exists_of_findSome?_eq_some hevent
    have haw : a ∈ m.walk := by
      rcases List.mem_cons.mp ha with rfl | ha
      · exact hh
      · exact hm.mem_walk_of_descent hh (List.mem_of_mem_filter ha)
    exact hm.mem_walk_of_child haw (List.mem_of_find?_eq_some he)
  · cases hevent

theorem IsClosed.mem_walk_of_namedIn? (hm : m.IsClosed) {h k : Handle} {r : Reference}
    (hh : h ∈ m.walk) (hk : m.namedIn? r h = some k) : k ∈ m.walk := by
  have hmember : ∀ name isStatic,
      (m.memberNamed? h name isStatic).bind (m.signatureNamed? · r.label) = some k →
        k ∈ m.walk := by
    intro name isStatic hboth
    obtain ⟨c, hc, hs⟩ := Option.bind_eq_some_iff.mp hboth
    exact hm.mem_walk_of_signatureNamed? (hm.mem_walk_of_memberNamed? hh hc) hs
  rw [namedIn?] at hk
  split at hk
  · cases hk
    exact hh
  · exact hmember _ _ hk
  · exact hmember _ _ hk
  · exact hm.mem_walk_of_eventNamed? hh hk

/-- In a closed model references name what stands in the walk. -/
theorem IsClosed.mem_walk_of_resolve? (hm : m.IsClosed) {context h : Handle} {r : Reference}
    (hc : context ∈ m.walk) (hh : (build m).resolve? m r context = some h) : h ∈ m.walk := by
  rw [resolve?] at hh
  split at hh
  · cases hh
  · rw [scope?_bind_build hm.toIsTree hc] at hh
    obtain ⟨scope, hs, hh⟩ := Option.bind_eq_some_iff.mp hh
    exact hm.mem_walk_of_namedIn? (mem_walk_of_scopeNamed? hm.toIsTree hs) hh

namespace Embeds

variable (he : m.Embeds σ m') {h : Handle}

include he

/-- Where both lists of what is unseen agree on images, the searches go the same way. -/
theorem searchBases_image {queue unseen unseen' : List Handle} (hu : unseen.Nodup)
    (hu' : unseen'.Nodup) (hqueue : ∀ b ∈ queue, b ∈ m.walk)
    (hagree : ∀ b ∈ m.walk, σ b ∈ unseen' ↔ b ∈ unseen) :
    searchBases m' (queue.map σ) unseen' = (searchBases m queue unseen).map σ := by
  induction queue, unseen using searchBases.induct m generalizing unseen' with
  | case1 unseen => rw [List.map_nil, searchBases_nil, searchBases_nil, List.map_nil]
  | case2 unseen b rest hb ih =>
    obtain ⟨hbw, hrest⟩ := List.forall_mem_cons.mp hqueue
    have hbases := he.closed.mem_walk_of_base b hbw
    have hnext : ∀ c ∈ m.walk, σ c ∈ unseen'.erase (σ b) ↔ c ∈ unseen.erase b := by
      intro c hc
      rw [hu'.mem_erase_iff, hu.mem_erase_iff, hagree c hc]
      exact and_congr_left fun _ ↦
        not_congr ⟨he.injOn c hc b hbw, fun hcb ↦ congrArg σ hcb⟩
    rw [List.map_cons, searchBases_cons_of_mem ((hagree b hbw).mpr hb), searchBases_cons_of_mem hb,
      List.map_cons, he.bases_image hbw, ← List.map_append]
    refine congrArg _ (ih (hu.erase b) (hu'.erase (σ b)) ?_ hnext)
    intro c hc
    exact (List.mem_append.mp hc).elim (hrest c) (hbases c)
  | case3 unseen b rest hb ih =>
    obtain ⟨hbw, hrest⟩ := List.forall_mem_cons.mp hqueue
    rw [List.map_cons, searchBases_cons_of_not_mem (mt (hagree b hbw).mp hb),
      searchBases_cons_of_not_mem hb]
    exact ih hu hu' hrest hagree

/-- **The line of descent of an image** is made of the images of the line of descent. -/
theorem descent_image (hh : h ∈ m.walk) : m'.descent (σ h) = (m.descent h).map σ := by
  have hunseen : ∀ b ∈ m.walk,
      σ b ∈ (List.range m'.size).erase (σ h) ↔ b ∈ (List.range m.size).erase h := by
    intro b hb
    have hlt := he.closed.lt_size b hb
    have hlt' := he.closed_image.lt_size (σ b) (he.mem_walk b hb)
    rw [List.nodup_range.mem_erase_iff, List.nodup_range.mem_erase_iff, List.mem_range,
      List.mem_range, and_iff_left hlt, and_iff_left hlt']
    exact not_congr ⟨he.injOn b hb h hh, fun hbh ↦ congrArg σ hbh⟩
  rw [← ancestorsOf_eq_descent, ← ancestorsOf_eq_descent, ancestorsOf, ancestorsOf,
    he.bases_image hh]
  exact he.searchBases_image (List.nodup_range.erase h) (List.nodup_range.erase (σ h))
    (he.closed.mem_walk_of_base h hh) hunseen

theorem eventNamed?_image (hh : h ∈ m.walk) (name : String) :
    m'.eventNamed? (σ h) name = (m.eventNamed? h name).map σ := by
  have hdescent : ∀ a ∈ m.descent h, a ∈ m.walk := fun a ↦ he.closed.mem_walk_of_descent hh
  have hclasses : ((m.descent h).map σ).filter
        (fun a ↦ m'.walk.contains a && (m'.get a).isContainer)
      = ((m.descent h).filter fun a ↦ m.walk.contains a && (m.get a).isContainer).map σ := by
    refine filter_map_of_forall fun a ha ↦ ?_
    have haw := hdescent a ha
    rw [List.contains_iff_mem.mpr haw, List.contains_iff_mem.mpr (he.mem_walk a haw),
      he.isContainer_image haw]
  rw [eventNamed?, eventNamed?, he.isContainer_image hh, he.descent_image hh, hclasses,
    ← List.map_cons]
  split
  · refine findSome?_map_of_forall fun a ha ↦ he.declaredEvent?_image ?_ name
    rcases List.mem_cons.mp ha with rfl | ha
    · exact hh
    · exact hdescent a (List.mem_of_mem_filter ha)
  · rfl

/-! ## References -/

/-- What a reference names in the image of its scope is the image of what it names there. -/
theorem namedIn?_image (hh : h ∈ m.walk) (r : Reference) :
    m'.namedIn? r (σ h) = (m.namedIn? r h).map σ := by
  have hmember : ∀ name isStatic,
      (m'.memberNamed? (σ h) name isStatic).bind (m'.signatureNamed? · r.label)
        = ((m.memberNamed? h name isStatic).bind (m.signatureNamed? · r.label)).map σ := by
    intro name isStatic
    rw [he.memberNamed?_image hh]
    cases hc : m.memberNamed? h name isStatic with
    | none => rfl
    | some c => exact he.signatureNamed?_image (he.closed.mem_walk_of_memberNamed? hh hc) r.label
  rw [namedIn?, namedIn?]
  cases r.marker with
  | none => rfl
  | inst => exact hmember _ false
  | static => exact hmember _ true
  | event => exact he.eventNamed?_image hh _

/-- The scope of a reference keeps its place if exports do. -/
theorem scopeNamed?_image (hx : KeepsExports σ m m') {context scope : Handle}
    (hc : context ∈ m.walk) {r : Reference} (hs : m.scopeNamed? r context = some scope) :
    m'.scopeNamed? r (σ context) = some (σ scope) := by
  obtain ⟨raw, path, type, name, marker, label⟩ := r
  cases path with
  | some path => exact hx path type scope hs
  | none =>
    cases type with
    | none =>
      have hcontainer : m.containerOf? context = some scope := by
        rw [containerOf?_eq_holdingContainer? he.closed.toIsTree hc]
        exact hs
      show m'.holdingContainer? (σ context) = some (σ scope)
      rw [← containerOf?_eq_holdingContainer? he.closed_image.toIsTree (he.mem_walk _ hc),
        he.containerOf?_image hc, hcontainer, Option.map_some]
    | some type =>
      rw [scopeNamed?, ← moduleOf?_eq_holdingModule? he.closed.toIsTree hc] at hs
      rw [scopeNamed?, ← moduleOf?_eq_holdingModule? he.closed_image.toIsTree (he.mem_walk _ hc),
        he.moduleOf?_image hc]
      cases hmodule : m.moduleOf? context with
      | none =>
        rw [hmodule] at hs
        cases hs
      | some k =>
        -- a module and its image have the same path
        have hk : k ∈ m.walk := he.closed.mem_walk_of_mem_enclosing hc
          (List.mem_of_find?_eq_some hmodule)
        have hpath : (m'.get (σ k)).modulePath = (m.get k).modulePath := by
          rw [he.get_eq k hk]
          rfl
        rw [hmodule] at hs
        rw [Option.map_some]
        dsimp only at hs ⊢
        rw [hpath]
        exact hx _ _ scope hs

/-- **References are carried over**: what resolves in a model resolves to its image in a model around it that
keeps its exports. -/
theorem resolve?_image (hx : KeepsExports σ m m') {context : Handle} (hc : context ∈ m.walk)
    {r : Reference} (hr : (build m).resolve? m r context = some h) :
    (build m').resolve? m' r (σ context) = some (σ h) := by
  rw [resolve?] at hr ⊢
  split at hr
  · cases hr
  · next hloose =>
    rw [if_neg hloose, scope?_bind_build he.closed_image.toIsTree (he.mem_walk _ hc)]
    rw [scope?_bind_build he.closed.toIsTree hc] at hr
    obtain ⟨scope, hs, hh⟩ := Option.bind_eq_some_iff.mp hr
    have hsw := mem_walk_of_scopeNamed? he.closed.toIsTree hs
    rw [he.scopeNamed?_image hx hc hs, Option.bind_some, he.namedIn?_image hsw, hh, Option.map_some]

end Embeds

end Model

end RefCheck
