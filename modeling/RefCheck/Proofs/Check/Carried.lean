import Mathlib.Data.List.Flatten
import RefCheck.Proofs.Check.Accused
import RefCheck.Proofs.Index.Carried

/-!
# Issues in a model inside another

A model that is found again in another one brings its issues along, and it can only lose some on the way: the
comments are the same, what resolved still resolves, and more may resolve than did. `Refines` says this of two
traces, and it is kept by putting traces one after another, so that the test of a declaration and the test of
its image are compared piece by piece (`Embeds.refines_test`).

An issue that a test finds is about the declaration itself or one of its signatures (`mem_findings`), so
issues stay where their declarations are.
-/

namespace RefCheck

open RefCheck.Log

namespace Check

variable {α β : Type} {a a' b b' : Trace Step} {σ : Handle → Handle}

/-! ## Whom a finding is about -/

section

variable {ix : Index} {m : Model} {h : Handle} {i : String × Handle}

/-- **An issue is about the declaration that is tested**, or about one of its signatures. -/
theorem mem_findings {c : Check} {excluded : Excluded} (hi : i ∈ c.findings ix m excluded h) :
    i.2 = h ∨ i.2 ∈ (m.get h).signatures := by
  obtain ⟨-, -, hi⟩ := mem_findings_iff.mp hi
  exact (accuses_of_mem_issues_test hi).1.owner_eq_or

theorem mem_walk_of_mem_findings (hm : m.IsTree) {c : Check} {excluded : Excluded}
    (hh : h ∈ m.walk) (hi : i ∈ c.findings ix m excluded h) : i.2 ∈ m.walk := by
  rcases mem_findings hi with hself | hsignature
  · exact hself ▸ hh
  · exact hm.mem_walk_of_signature hh hsignature

end

/-! ## Traces over images -/

/-- An issue seen from where its reflection is led. -/
abbrev carry (σ : Handle → Handle) (i : String × Handle) : String × Handle := (i.1, σ i.2)

/-- The second trace stops where the first one does, and of the issues of the first, led elsewhere, it has no
more than some, in their order. -/
structure Refines (σ : Handle → Handle) (t t' : Trace Step) : Prop where
  fault_eq : t'.fault = t.fault
  issues_sublist : (issues t').Sublist ((issues t).map (carry σ))

namespace Refines

theorem refl_of_issues_eq_nil (h : issues a = []) : Refines σ a a := by
  refine ⟨rfl, ?_⟩
  rw [h]
  exact List.nil_sublist _

theorem nothing : Refines σ .nothing .nothing := refl_of_issues_eq_nil rfl

theorem andThen (ha : Refines σ a a') (hb : Refines σ b b') :
    Refines σ (a.andThen b) (a'.andThen b') := by
  obtain ⟨hfault, hissues⟩ := ha
  rw [Trace.andThen, Trace.andThen, hfault]
  -- the second parts only count where the first ones end
  cases a.fault with
  | some f => exact ⟨rfl, hissues⟩
  | none =>
    refine ⟨hb.fault_eq, ?_⟩
    rw [issues, issues, List.filterMap_append, List.filterMap_append, List.map_append]
    exact hissues.append hb.issues_sublist

theorem forEach {items : List α} {g : α → β} {f : α → Trace Step} {f' : β → Trace Step}
    (h : ∀ x ∈ items, Refines σ (f x) (f' (g x))) :
    Refines σ (.forEach items f) (.forEach (items.map g) f') := by
  induction items with
  | nil => exact nothing
  | cons x items ih =>
    obtain ⟨hx, hitems⟩ := List.forall_mem_cons.mp h
    exact hx.andThen (ih hitems)

theorem forEach_same {items : List α} {f f' : α → Trace Step}
    (h : ∀ x ∈ items, Refines σ (f x) (f' x)) : Refines σ (.forEach items f) (.forEach items f') := by
  have hmap := forEach (g := fun x ↦ x) h
  rwa [List.map_id'] at hmap

theorem ofResult {result : Except Fault α} {next next' : α → Trace Step}
    (h : ∀ x, Refines σ (next x) (next' x)) :
    Refines σ (.ofResult result next) (.ofResult result next') := by
  cases result with
  | error f => exact refl_of_issues_eq_nil rfl
  | ok x => exact h x

end Refines

end Check

namespace Model.Embeds

open RefCheck.Check

variable {m m' : Model} {σ : Handle → Handle} {h : Handle}

/-! ## One declaration -/

section

variable (he : m.Embeds σ m')

include he

/-- An image belongs to the project exactly if its reflection does. -/
theorem isOwn_image (hh : h ∈ m.walk) (excluded : Excluded) :
    m'.isOwn excluded (σ h) = m.isOwn excluded h := by
  rw [isOwn, isOwn, he.isAnonymous_image hh, isLost_eq_false he.closed.toIsTree hh,
    isLost_eq_false he.closed_image.toIsTree (he.mem_walk h hh), he.sourceOf?_image hh]

theorem refines_accuse (hh : h ∈ m.walk) (message : String) :
    Refines σ (accuse m message h) (accuse m' message (σ h)) := by
  rw [accuse, accuse, isLost_eq_false he.closed.toIsTree hh,
    isLost_eq_false he.closed_image.toIsTree (he.mem_walk h hh)]
  exact ⟨rfl, List.Sublist.refl _⟩

theorem unlabelled_image (hh : h ∈ m.walk) : unlabelled m' (σ h) = (unlabelled m h).map σ := by
  rw [unlabelled, unlabelled, he.signatures_image hh, List.length_map]
  split
  · rfl
  · refine filter_map_of_forall fun s hs ↦ ?_
    rw [he.get_eq s (he.closed.mem_walk_of_signature hh hs)]
    rfl

theorem ownedComments_image (hh : h ∈ m.walk) :
    ownedComments m' (σ h) = (ownedComments m h).map fun owned ↦ (σ owned.1, owned.2) := by
  have howners : ∀ k ∈ h :: (m.get h).signatures, k ∈ m.walk :=
    List.forall_mem_cons.mpr ⟨hh, fun s ↦ he.closed.mem_walk_of_signature hh⟩
  rw [ownedComments, ownedComments, he.signatures_image hh, ← List.map_cons, List.filterMap_map,
    List.map_filterMap]
  refine List.filterMap_congr fun k hk ↦ ?_
  rw [Function.comp_apply, he.get_eq k (howners k hk), Option.map_map]
  rfl

end

section

variable (he : m.Embeds σ m') (hx : KeepsExports σ m m')

include he hx

/-- What resolved still resolves, so an issue may go but none can come. -/
theorem refines_expectTarget (hh : h ∈ m.walk) (r : Reference) (message : String) :
    Refines σ (expectTarget (Index.build m) m r h message)
      (expectTarget (Index.build m') m' r (σ h) message) := by
  have hnotes : Refines σ (.ofList ((Index.resolveEvents m r h).map .note))
      (.ofList ((Index.resolveEvents m' r (σ h)).map .note)) := by
    refine ⟨rfl, ?_⟩
    rw [issues_notes]
    exact List.nil_sublist _
  refine hnotes.andThen ?_
  cases hr : (Index.build m).resolve? m r h with
  | some k =>
    rw [he.resolve?_image hx hh hr]
    exact Refines.nothing
  | none =>
    have haccuse := he.refines_accuse hh message
    rw [Option.isNone_none, if_pos rfl]
    split
    · exact haccuse
    · -- a reference into what is only in the larger model
      refine ⟨?_, List.nil_sublist _⟩
      rw [accuse, isLost_eq_false he.closed.toIsTree hh]
      rfl

theorem refines_expectMention (hh : h ∈ m.walk) (message : String → String) (text : String) :
    Refines σ (expectMention (Index.build m) m h message text)
      (expectMention (Index.build m') m' (σ h) message text) := by
  rw [expectMention, expectMention]
  cases Reference.parse? text with
  | none => exact Refines.nothing
  | some r => exact he.refines_expectTarget hx hh r _

theorem refines_mentions (hh : h ∈ m.walk) (message : String → String)
    (result : Except Fault (List String)) :
    Refines σ
      (.ofResult result fun texts ↦ .forEach texts (expectMention (Index.build m) m h message))
      (.ofResult result fun texts ↦
        .forEach texts (expectMention (Index.build m') m' (σ h) message)) :=
  .ofResult fun _ ↦ .forEach_same fun text _ ↦ he.refines_expectMention hx hh message text

theorem refines_firesTagTrace (hh : h ∈ m.walk) (t : BlockTag) :
    Refines σ (firesTagTrace (Index.build m) m h t)
      (firesTagTrace (Index.build m') m' (σ h) t) := by
  rw [firesTagTrace, firesTagTrace]
  cases t.firedEvent?.bind Reference.parse? with
  | none => exact Refines.nothing
  | some r =>
    dsimp only
    split
    · exact he.refines_expectTarget hx hh r _
    · exact he.refines_accuse hh _

omit hx in
private theorem refines_tags {name : String} {test test' : Handle → BlockTag → Trace Step}
    (htest : ∀ k ∈ m.walk, ∀ t, Refines σ (test k t) (test' (σ k) t)) (hh : h ∈ m.walk) :
    Refines σ
      (.forEach (ownedComments m h) fun owned ↦
        .forEach (owned.2.tagsNamed name) (test owned.1))
      (.forEach (ownedComments m' (σ h)) fun owned ↦
        .forEach (owned.2.tagsNamed name) (test' owned.1)) := by
  rw [he.ownedComments_image hh]
  refine Refines.forEach fun owned howned ↦ Refines.forEach_same fun t _ ↦ htest owned.1 ?_ t
  exact mem_walk_of_carries he.closed.toIsTree hh (mem_ownedComments.mp howned)

/-- **The test of an image** stops where the test of its reflection does and finds no more. -/
theorem refines_test (hh : h ∈ m.walk) (c : Check) :
    Refines σ (c.test (Index.build m) m h) (c.test (Index.build m') m' (σ h)) := by
  cases c with
  | overloads =>
    rw [test, test, he.unlabelled_image hh]
    refine Refines.forEach fun s hs ↦ he.refines_accuse ?_ _
    exact he.closed.mem_walk_of_signature hh (mem_unlabelled.mp hs).2.1
  | see => exact he.refines_tags (fun k hk t ↦ he.refines_mentions hx hk _ _) hh
  | links =>
    rw [test, test, linksOf, linksOf, he.get_eq h hh]
    cases hc : (m.get h).comment with
    | none =>
      simp only [Reflection.relink, hc]
      exact Refines.nothing
    | some c =>
      simp only [Reflection.relink, hc]
      exact he.refines_mentions hx hh _ _
  | fires => exact he.refines_tags (fun k hk t ↦ he.refines_firesTagTrace hx hk t) hh

/-- No fault stops a check at an image unless one does at its reflection. -/
theorem endsAt_image (hh : h ∈ m.walk) (c : Check) (excluded : Excluded) :
    c.EndsAt (Index.build m') m' excluded (σ h) ↔ c.EndsAt (Index.build m) m excluded h := by
  rw [EndsAt, EndsAt, he.isOwn_image hh, (he.refines_test hx hh c).fault_eq, he.get_eq h hh]
  rfl

/-- What a check finds at an image it finds at the reflection. -/
theorem findings_image (hh : h ∈ m.walk) (c : Check) (excluded : Excluded) :
    (c.findings (Index.build m') m' excluded (σ h)).Sublist
      ((c.findings (Index.build m) m excluded h).map (carry σ)) := by
  have hlooks : c.looksAt m' excluded (σ h) = c.looksAt m excluded h := by
    rw [looksAt, looksAt, he.isOwn_image hh, he.get_eq h hh]
    rfl
  rw [findings, findings, hlooks]
  split
  · exact (he.refines_test hx hh c).issues_sublist
  · exact List.nil_sublist _

end

end Model.Embeds

end RefCheck
