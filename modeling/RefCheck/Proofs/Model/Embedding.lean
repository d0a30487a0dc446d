import RefCheck.Model.Origin
import RefCheck.Proofs.Model.Scan

/-!
# Models inside models

A model can be found again in another one: each of its reflections has an *image* there, and the image has
the same fields and is linked to the images of what the reflection is linked to. The handles may be others,
the walk may come to the images in another order, and there may be more in the other model.

`Embeds` says this of two models that are closed, so that no link leads to what is in no walk. What is found
by following links from a reflection then has its image found from the image: the way up
(`Embeds.enclosing_eq`), the place where it is written, its members, the line of descent and the events on it.
Only what is found by going through the whole walk can be another one, which is left to those who ask.
-/

namespace RefCheck

/-! ## Searching a list of images -/

section

variable {α β γ : Type} {f : α → β} {l : List α}

theorem find?_map_of_forall {p : α → Bool} {q : β → Bool} (h : ∀ a ∈ l, q (f a) = p a) :
    (l.map f).find? q = (l.find? p).map f := by
  induction l with
  | nil => rfl
  | cons a l ih =>
    obtain ⟨ha, hl⟩ := List.forall_mem_cons.mp h
    rw [List.map_cons, List.find?_cons, List.find?_cons, ha, ih hl]
    cases p a <;> rfl

theorem filter_map_of_forall {p : α → Bool} {q : β → Bool} (h : ∀ a ∈ l, q (f a) = p a) :
    (l.map f).filter q = (l.filter p).map f := by
  rw [List.filter_map]
  exact congrArg _ (List.filter_congr h)

theorem takeWhile_map_of_forall {p : α → Bool} {q : β → Bool} (h : ∀ a ∈ l, q (f a) = p a) :
    (l.map f).takeWhile q = (l.takeWhile p).map f := by
  induction l with
  | nil => rfl
  | cons a l ih =>
    obtain ⟨ha, hl⟩ := List.forall_mem_cons.mp h
    rw [List.map_cons, List.takeWhile_cons, List.takeWhile_cons, ha, ih hl]
    cases p a <;> rfl

theorem findSome?_map_of_forall {α' β' : Type} {g : α' → β'} {p : α → Option α'}
    {q : β → Option β'} (h : ∀ a ∈ l, q (f a) = (p a).map g) :
    (l.map f).findSome? q = (l.findSome? p).map g := by
  induction l with
  | nil => rfl
  | cons a l ih =>
    obtain ⟨ha, hl⟩ := List.forall_mem_cons.mp h
    rw [List.map_cons, List.findSome?_cons, List.findSome?_cons, ha, ih hl]
    cases p a <;> rfl

end

/-- The reflection with every link led elsewhere. -/
def Reflection.relink (σ : Handle → Handle) (r : Reflection) : Reflection :=
  { r with
    children := r.children.map σ
    signatures := r.signatures.map σ
    bases := r.bases.map σ
    inheritedFrom := r.inheritedFrom.map σ
    parent := r.parent.map σ }

@[simp] theorem Reflection.relink_self (r : Reflection) : r.relink (fun h ↦ h) = r := by
  simp [relink]

namespace Model

/-- A tree with nothing outside: every handle in the walk is one of a reflection, and bases stand in the walk
too. -/
structure IsClosed (m : Model) : Prop extends m.IsTree where
  lt_size : ∀ h ∈ m.walk, h < m.size
  mem_walk_of_base : ∀ h ∈ m.walk, ∀ b ∈ (m.get h).bases, b ∈ m.walk

/-- A model is found again in another one, each of its reflections at an image of its own. -/
structure Embeds (σ : Handle → Handle) (m m' : Model) : Prop where
  closed : m.IsClosed
  closed_image : m'.IsClosed
  mem_walk : ∀ h ∈ m.walk, σ h ∈ m'.walk
  injOn : ∀ h ∈ m.walk, ∀ k ∈ m.walk, σ h = σ k → h = k
  get_eq : ∀ h ∈ m.walk, m'.get (σ h) = (m.get h).relink σ

variable {m m' : Model} {σ : Handle → Handle}

/-! ## What stands in the walk -/

namespace IsTree

theorem mem_walk_of_signature (hm : m.IsTree) {h s : Handle} (hh : h ∈ m.walk)
    (hs : s ∈ (m.get h).signatures) : s ∈ m.walk :=
  hm.mem_walk_of_owned hh (List.mem_append_left _ hs)

theorem mem_walk_of_child (hm : m.IsTree) {h c : Handle} (hh : h ∈ m.walk)
    (hc : c ∈ (m.get h).children) : c ∈ m.walk :=
  hm.mem_walk_of_owned hh (List.mem_append_right _ hc)

/-- More levels than the way up has lead no further. -/
theorem enclosingTo_eq_of_length_lt {n levels : Nat} {h : Handle}
    (hlt : (m.enclosingTo n h).length < n) (hle : n ≤ levels) :
    m.enclosingTo levels h = m.enclosingTo n h := by
  induction n generalizing levels h with
  | zero => exact absurd hlt (Nat.not_lt_zero _)
  | succ n ih =>
    obtain ⟨levels, rfl⟩ : ∃ k, levels = k + 1 := ⟨levels - 1, by omega⟩
    rw [enclosingTo] at hlt
    rw [enclosingTo, enclosingTo]
    cases hp : (m.get h).parent with
    | none => rfl
    | some p =>
      rw [hp, List.length_cons] at hlt
      dsimp only at hlt ⊢
      rw [ih (by omega) (by omega)]

theorem enclosing_eq_enclosingTo (hm : m.IsTree) {levels : Nat} {h : Handle} (hh : h ∈ m.walk)
    (hlevels : m.size < levels) : m.enclosing h = m.enclosingTo levels h :=
  (enclosingTo_eq_of_length_lt (Nat.lt_succ_of_le (hm.length_enclosing_le hh)) hlevels).symm

theorem mem_enclosing_of_parent (hm : m.IsTree) {h p : Handle} (hh : h ∈ m.walk)
    (hp : (m.get h).parent = some p) : p ∈ m.enclosing h := by
  have hlevels : m.size < m.size + 2 := by omega
  rw [hm.enclosing_eq_enclosingTo hh hlevels, enclosingTo, hp]
  exact List.mem_cons_of_mem _ List.mem_cons_self

theorem mem_walk_of_parent (hm : m.IsTree) {h p : Handle} (hh : h ∈ m.walk)
    (hp : (m.get h).parent = some p) : p ∈ m.walk :=
  hm.mem_walk_of_mem_enclosing hh (hm.mem_enclosing_of_parent hh hp)

/-- The way up, read from the outside in, is part of the walk. -/
theorem reverse_enclosing_sublist_walk (hm : m.IsTree) {h : Handle} (hh : h ∈ m.walk) :
    (m.enclosing h).reverse.Sublist m.walk := by
  rw [hm.enclosing_eq_holders hh, holders, List.reverse_reverse]
  exact List.filter_sublist

end IsTree

namespace Embeds

variable (he : m.Embeds σ m') {h : Handle}

include he

theorem id_image (hh : h ∈ m.walk) : (m'.get (σ h)).id = (m.get h).id := by
  rw [he.get_eq h hh]
  rfl

theorem isModule_image (hh : h ∈ m.walk) : (m'.get (σ h)).isModule = (m.get h).isModule := by
  rw [he.get_eq h hh]
  rfl

theorem isContainer_image (hh : h ∈ m.walk) :
    (m'.get (σ h)).isContainer = (m.get h).isContainer := by
  rw [he.get_eq h hh]
  rfl

theorem children_image (hh : h ∈ m.walk) :
    (m'.get (σ h)).children = (m.get h).children.map σ := by
  rw [he.get_eq h hh]
  rfl

theorem signatures_image (hh : h ∈ m.walk) :
    (m'.get (σ h)).signatures = (m.get h).signatures.map σ := by
  rw [he.get_eq h hh]
  rfl

theorem bases_image (hh : h ∈ m.walk) : (m'.get (σ h)).bases = (m.get h).bases.map σ := by
  rw [he.get_eq h hh]
  rfl

/-! ## Going up -/

theorem enclosingTo_image (hh : h ∈ m.walk) (n : Nat) :
    m'.enclosingTo n (σ h) = (m.enclosingTo n h).map σ := by
  induction n generalizing h with
  | zero => rfl
  | succ n ih =>
    have hparent : (m'.get (σ h)).parent = (m.get h).parent.map σ := by
      rw [he.get_eq h hh]
      rfl
    rw [enclosingTo, enclosingTo, hparent, List.map_cons]
    cases hp : (m.get h).parent with
    | none => rfl
    | some p => exact congrArg _ (ih (he.closed.mem_walk_of_parent hh hp))

/-- **The way up from an image** passes the images of what the way up passes. -/
theorem enclosing_image (hh : h ∈ m.walk) : m'.enclosing (σ h) = (m.enclosing h).map σ := by
  -- both ways up have an end, so they may be taken to the same number of levels
  have hlevels : m.size < m.size + m'.size + 1 := by omega
  have hlevels' : m'.size < m.size + m'.size + 1 := by omega
  rw [he.closed.enclosing_eq_enclosingTo hh hlevels,
    he.closed_image.enclosing_eq_enclosingTo (he.mem_walk h hh) hlevels', he.enclosingTo_image hh]

theorem moduleOf?_image (hh : h ∈ m.walk) : m'.moduleOf? (σ h) = (m.moduleOf? h).map σ := by
  rw [moduleOf?, moduleOf?, he.enclosing_image hh]
  refine find?_map_of_forall fun k hk ↦ ?_
  exact he.isModule_image (he.closed.mem_walk_of_mem_enclosing hh hk)

theorem containerOf?_image (hh : h ∈ m.walk) :
    m'.containerOf? (σ h) = (m.containerOf? h).map σ := by
  have hwalk : ∀ k ∈ m.enclosing h, k ∈ m.walk := fun k ↦ he.closed.mem_walk_of_mem_enclosing hh
  have hinside : ((m.enclosing h).map σ).takeWhile (fun k ↦ !(m'.get k).isModule)
      = ((m.enclosing h).takeWhile fun k ↦ !(m.get k).isModule).map σ :=
    takeWhile_map_of_forall fun k hk ↦ by rw [he.isModule_image (hwalk k hk)]
  rw [containerOf?, containerOf?, he.enclosing_image hh, hinside]
  refine find?_map_of_forall fun k hk ↦ ?_
  exact he.isContainer_image (hwalk k (List.takeWhile_subset _ hk))

/-- An image is written where its reflection is. -/
theorem sourceOf?_image (hh : h ∈ m.walk) : m'.sourceOf? (σ h) = m.sourceOf? h := by
  have hwalk : ∀ k ∈ m.enclosing h, k ∈ m.walk := fun k ↦ he.closed.mem_walk_of_mem_enclosing hh
  rw [sourceOf?, sourceOf?, he.enclosing_image hh]
  generalize m.enclosing h = hs at hwalk
  induction hs with
  | nil => rfl
  | cons k hs ih =>
    obtain ⟨hk, hhs⟩ := List.forall_mem_cons.mp hwalk
    rw [List.map_cons, sourceAlong, sourceAlong, he.get_eq k hk, ih hhs]
    rfl

theorem isAnonymous_image (hh : h ∈ m.walk) : m'.isAnonymous (σ h) = m.isAnonymous h := by
  rw [isAnonymous, isAnonymous, he.get_eq h hh]
  cases hp : (m.get h).parent with
  | none => simp [Reflection.relink, hp]
  | some p =>
    simp [Reflection.relink, hp, he.get_eq p (he.closed.mem_walk_of_parent hh hp)]

/-! ## Members and events -/

theorem membersNamed_image (hh : h ∈ m.walk) (name : String) (isStatic : Bool) :
    m'.membersNamed (σ h) name isStatic = (m.membersNamed h name isStatic).map σ := by
  rw [membersNamed, membersNamed, he.children_image hh]
  refine filter_map_of_forall fun c hc ↦ ?_
  rw [he.get_eq c (he.closed.mem_walk_of_child hh hc)]
  rfl

theorem memberNamed?_image (hh : h ∈ m.walk) (name : String) (isStatic : Bool) :
    m'.memberNamed? (σ h) name isStatic = (m.memberNamed? h name isStatic).map σ := by
  rw [memberNamed?, memberNamed?, he.isContainer_image hh, he.membersNamed_image hh]
  split
  · have hown : ((m.membersNamed h name isStatic).map σ).find? (fun c ↦ !(m'.get c).isInherited)
        = ((m.membersNamed h name isStatic).find? fun c ↦ !(m.get c).isInherited).map σ := by
      refine find?_map_of_forall fun c hc ↦ ?_
      have hchild := List.mem_of_mem_filter hc
      rw [he.get_eq c (he.closed.mem_walk_of_child hh hchild)]
      simp [Reflection.isInherited, Reflection.relink]
    rw [hown, List.head?_map, Option.map_or]
  · rfl

theorem declaredEvent?_image (hh : h ∈ m.walk) (name : String) :
    m'.declaredEvent? name (σ h) = (m.declaredEvent? name h).map σ := by
  rw [declaredEvent?, declaredEvent?, he.children_image hh]
  refine find?_map_of_forall fun c hc ↦ ?_
  rw [he.get_eq c (he.closed.mem_walk_of_child hh hc)]
  rfl

theorem signatureNamed?_image (hh : h ∈ m.walk) (label : Option String) :
    m'.signatureNamed? (σ h) label = (m.signatureNamed? h label).map σ := by
  cases label with
  | none => rfl
  | some label =>
    rw [signatureNamed?, signatureNamed?, he.signatures_image hh]
    refine find?_map_of_forall fun s hs ↦ ?_
    rw [he.get_eq s (he.closed.mem_walk_of_signature hh hs)]
    rfl

end Embeds

end Model

end RefCheck
