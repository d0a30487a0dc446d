import RefCheck.Proofs.Check.Findings
import RefCheck.Proofs.Check.Mentioned
import RefCheck.Proofs.Index.Resolution
import RefCheck.Proofs.Model.Own

/-!
# What each check decides

A check is a trace, and what it says is whether there is an issue in the trace. `Decides t P` puts both
halves of a verdict together: the trace comes to its end without a fault, and it is free of issues exactly
if `P`. Putting traces one after another is then putting conditions side by side, and going over a list is
asking for every item, so the condition of a check is read off how its trace is put together.

Each check so decides what `Model.Passes` says of it.
-/

namespace RefCheck.Check

open RefCheck.Log

variable {m : Model} {excluded : List String}

/-! ## Verdicts -/

/-- The trace comes to its end, and it is free of issues exactly if something holds. -/
structure Decides (t : Trace Step) (P : Prop) : Prop where
  /-- The trace stops at no fault. -/
  fault_eq_none : t.fault = none
  /-- There is no issue exactly if the condition holds. -/
  free_iff : (∀ s ∈ t.steps, s.issue? = none) ↔ P

namespace Decides

variable {α : Type} {P Q : Prop} {a b t : Trace Step}

theorem of_iff (h : Decides t P) (hpq : P ↔ Q) : Decides t Q :=
  ⟨h.fault_eq_none, h.free_iff.trans hpq⟩

theorem nothing : Decides .nothing True :=
  ⟨rfl, iff_of_true (fun _ hs ↦ (List.not_mem_nil hs).elim) trivial⟩

/-- What a log tells is no issue. -/
theorem notes (events : List Event) : Decides (.ofList (events.map .note)) True := by
  refine ⟨rfl, iff_of_true ?_ trivial⟩
  intro s hs
  obtain ⟨e, -, rfl⟩ := List.mem_map.mp hs
  rfl

theorem andThen (ha : Decides a P) (hb : Decides b Q) : Decides (a.andThen b) (P ∧ Q) := by
  rw [Trace.andThen_of_fault_eq_none ha.fault_eq_none]
  refine ⟨hb.fault_eq_none, ?_⟩
  rw [← ha.free_iff, ← hb.free_iff]
  simp only [List.mem_append, or_imp, forall_and]

theorem forEach {items : List α} {f : α → Trace Step} {P : α → Prop}
    (h : ∀ x ∈ items, Decides (f x) (P x)) : Decides (.forEach items f) (∀ x ∈ items, P x) := by
  induction items with
  | nil => exact nothing.of_iff (iff_of_true trivial fun x hx ↦ (List.not_mem_nil hx).elim)
  | cons x items ih =>
    rw [Trace.forEach_cons]
    refine ((h x List.mem_cons_self).andThen
      (ih fun y hy ↦ h y (List.mem_cons_of_mem x hy))).of_iff ?_
    rw [List.forall_mem_cons]

theorem ofResult {result : Except Fault α} {next : α → Trace Step} {x : α} (hx : result = .ok x)
    (h : Decides (next x) P) : Decides (.ofResult result next) P := by
  rw [hx]
  exact h

end Decides

/-! ## Issues -/

/-- In a tree the way up ends, so the source of a declaration is never asked for in a circle. -/
theorem isLost_eq_false (hm : m.IsTree) {h : Handle} (hh : h ∈ m.walk) : m.isLost h = false := by
  have hle := hm.length_enclosing_le hh
  have hlt : ¬m.size < (m.enclosing h).length := Nat.not_lt.mpr hle
  rw [Model.isLost, decide_eq_false hlt, Bool.false_and]

theorem decides_accuse (hm : m.IsTree) {h : Handle} (hh : h ∈ m.walk) (message : String) :
    Decides (accuse m message h) False := by
  rw [accuse, isLost_eq_false hm hh, if_neg Bool.false_ne_true]
  refine ⟨rfl, iff_of_false ?_ id⟩
  intro hfree
  cases hfree _ (List.mem_singleton_self _)

/-- What the index resolves is there to be scanned, and the other way round. -/
private theorem isNone_resolve?_build (hm : m.IsTree) {owner : Handle} (ho : owner ∈ m.walk)
    (r : Reference) :
    ((Index.build m).resolve? m r owner).isNone = (m.target? r owner).isNone := by
  rw [Index.resolve?, Model.target?, Index.scope?_bind_build hm ho]

theorem decides_expectTarget (hm : m.IsTree) {owner : Handle} (ho : owner ∈ m.walk) (r : Reference)
    (message : String) :
    Decides (expectTarget (Index.build m) m r owner message) (∃ h, m.target? r owner = some h) := by
  rw [expectTarget, isNone_resolve?_build hm ho]
  cases htarget : m.target? r owner with
  | none =>
    refine ((Decides.notes _).andThen (decides_accuse hm ho message)).of_iff ?_
    simp
  | some h =>
    refine ((Decides.notes _).andThen Decides.nothing).of_iff ?_
    simp

theorem isReference_eq_isSome (text : String) :
    Reference.isReference text = (Reference.parse? text).isSome := by
  rw [Reference.isReference, Reference.isReferenceText, Reference.parse?, Reference.ofChars?]
  split
  · next h => rw [h]; rfl
  · next h => rw [Bool.not_eq_true] at h; rw [h]; rfl

/-- One mention asks for its target. -/
theorem decides_expectMention (hm : m.IsTree) {owner : Handle} (ho : owner ∈ m.walk)
    (message : String → String) (text : String) :
    Decides (expectMention (Index.build m) m owner message text) (m.HasTarget owner text) := by
  rw [expectMention, Model.HasTarget, isReference_eq_isSome]
  cases hread : Reference.parse? text with
  | none =>
    refine Decides.nothing.of_iff ?_
    simp
  | some r =>
    refine (decides_expectTarget hm ho r (message r.raw)).of_iff ?_
    simp

/-- Several mentions ask for the target of each of them. -/
theorem decides_mentions (hm : m.IsTree) {owner : Handle} (ho : owner ∈ m.walk)
    (message : String → String) (texts : List String) :
    Decides (.forEach texts (expectMention (Index.build m) m owner message))
      (∀ text ∈ texts, m.HasTarget owner text) :=
  .forEach fun text _ ↦ decides_expectMention hm ho message text

/-- One `@fires` tag asks for its event. -/
theorem decides_firesTagTrace (hm : m.IsTree) {owner : Handle} (ho : owner ∈ m.walk)
    (t : BlockTag) :
    Decides (firesTagTrace (Index.build m) m owner t)
      (∀ text, t.firedEvent? = some text → m.HasEvent owner text) := by
  rw [firesTagTrace]
  cases hfired : t.firedEvent? with
  | none =>
    refine Decides.nothing.of_iff ?_
    simp
  | some text =>
    rw [Option.bind_some]
    simp only [Model.HasEvent, isReference_eq_isSome, Option.some.injEq, forall_eq']
    cases hread : Reference.parse? text with
    | none =>
      refine Decides.nothing.of_iff ?_
      simp
    | some r =>
      dsimp only
      split
      · next hevent =>
        refine (decides_expectTarget hm ho r _).of_iff ?_
        simp [hevent]
      · next hevent =>
        refine (decides_accuse hm ho _).of_iff ?_
        simp [hevent]

/-! ## Declarations of the project -/

/-- The path of a source with a legible name is a text. -/
theorem exists_path {s : Source} (hs : s.fullFileName.IsTextOrNull) :
    ∃ path, s.path = .str path := by
  rw [Source.path]
  rcases hs with hnull | ⟨path, hpath⟩
  · exact ⟨s.fileName, by rw [hnull]; rfl⟩
  · rw [hpath]
    split
    · exact ⟨path, rfl⟩
    · exact ⟨s.fileName, rfl⟩

/-- The source of a declaration is one that the declaration or one of its owners has. -/
theorem mem_sources_of_sourceAlong {hs : List Handle} {s : Source}
    (h : m.sourceAlong hs = some s) : ∃ k ∈ hs, s ∈ (m.get k).sources := by
  induction hs with
  | nil => cases h
  | cons k hs ih =>
    rw [Model.sourceAlong] at h
    split at h
    · next s' rest hsources =>
      cases h
      exact ⟨k, List.mem_cons_self, by rw [hsources]; exact List.mem_cons_self⟩
    · split at h
      · obtain ⟨l, hl, hmem⟩ := ih h
        exact ⟨l, List.mem_cons_of_mem k hl, hmem⟩
      · cases h

private theorem exists_isOwn (hm : m.IsTree) (hl : m.Legible) {h : Handle} (hh : h ∈ m.walk) :
    ∃ own, m.isOwn (.ok excluded) h = .ok own := by
  refine (Model.exists_isOwn_iff (isLost_eq_false hm hh)).mpr fun _ s hsource ↦ ?_
  obtain ⟨k, hk, hs⟩ := mem_sources_of_sourceAlong hsource
  exact exists_path (hl.sources k (hm.mem_walk_of_mem_enclosing hh hk) s hs)

/-- A test of every declaration of the project decides what it decides of each of them. -/
theorem decides_forOwn (hm : m.IsTree) (hl : m.Legible) {mask : Kind} {test : Handle → Trace Step}
    {P : Handle → Prop} (htest : ∀ h ∈ m.walk, Decides (test h) (P h)) :
    Decides (forOwn m mask (.ok excluded) test) (∀ h, m.Own excluded mask h → P h) := by
  -- a fault would stop the check before the first test, so none may come from any declaration
  have hsafe : ∀ h ∈ m.ofKind mask, ∃ own, m.isOwn (.ok excluded) h = .ok own :=
    fun h hh ↦ exists_isOwn hm hl (List.mem_of_mem_filter hh)
  have hkept : m.ownOfKind mask (.ok excluded) = .ok _ :=
    Model.filterM_eq_ok_iff.mpr ⟨hsafe, rfl⟩
  have hmem := fun h ↦ Model.mem_of_ownOfKind_eq_ok hkept (h := h)
  refine Decides.ofResult hkept ((Decides.forEach ?_).of_iff
    (forall_congr' fun h ↦ imp_congr_left (hmem h)))
  exact fun h hh ↦ htest h ((hmem h).mp hh).1

/-! ## The checks -/

theorem mem_walk_of_carries (hm : m.IsTree) {h owner : Handle} {c : Comment} (hh : h ∈ m.walk)
    (hc : m.Carries h owner c) : owner ∈ m.walk := by
  rcases hc.1 with rfl | hsignature
  · exact hh
  · exact hm.mem_walk_of_owned hh (List.mem_append_left _ hsignature)

theorem mem_ownedComments {h owner : Handle} {c : Comment} :
    (owner, c) ∈ ownedComments m h ↔ m.Carries h owner c := by
  rw [ownedComments, List.mem_filterMap, Model.Carries, ← List.mem_cons]
  constructor
  · rintro ⟨k, hk, hread⟩
    obtain ⟨c', hc', hpair⟩ := Option.map_eq_some_iff.mp hread
    cases hpair
    exact ⟨hk, hc'⟩
  · rintro ⟨howner, hc⟩
    exact ⟨owner, howner, by rw [hc]; rfl⟩

/-- A test of every tag of a name on classes and methods, and on their signatures. -/
private theorem decides_forTags (hm : m.IsTree) (hl : m.Legible) {name : String}
    {test : Handle → BlockTag → Trace Step} {P : Handle → BlockTag → Prop}
    (htest : ∀ owner ∈ m.walk, ∀ c, (m.get owner).comment = some c → ∀ t ∈ c.tagsNamed name,
      Decides (test owner t) (P owner t)) :
    Decides
      (forOwn m tagged (.ok excluded) fun h ↦ .forEach (ownedComments m h) fun owned ↦
        .forEach (owned.2.tagsNamed name) (test owned.1))
      (∀ h, m.Own excluded tagged h → ∀ owner c, m.Carries h owner c → ∀ t ∈ c.tagsNamed name,
        P owner t) := by
  refine decides_forOwn hm hl fun h hh ↦ ?_
  refine (Decides.forEach (P := fun owned ↦ ∀ t ∈ owned.2.tagsNamed name, P owned.1 t) ?_).of_iff ?_
  · -- signatures stand in the walk too, so what they mention is scanned for as well
    rintro ⟨owner, c⟩ howned
    have hcarries := mem_ownedComments.mp howned
    exact Decides.forEach fun t ht ↦
      htest owner (mem_walk_of_carries hm hh hcarries) c hcarries.2 t ht
  · rw [Prod.forall]
    exact forall_congr' fun owner ↦ forall_congr' fun c ↦ imp_congr_left mem_ownedComments

theorem mem_unlabelled {h s : Handle} : s ∈ unlabelled m h ↔
    2 ≤ (m.get h).signatures.length ∧ s ∈ (m.get h).signatures ∧ (m.get s).label? = none := by
  rw [unlabelled]
  split
  · next hone =>
    refine iff_of_false List.not_mem_nil fun hboth ↦ ?_
    omega
  · next hmany =>
    have htwo : 2 ≤ (m.get h).signatures.length := by omega
    rw [List.mem_filter, Option.isNone_iff_eq_none, and_iff_right htwo]

theorem decides_runOverloads (hm : m.IsTree) (hl : m.Legible) :
    Decides (runOverloads m (.ok excluded)) (m.OverloadsLabelled excluded) := by
  refine decides_forOwn hm hl fun h hh ↦ ?_
  refine (Decides.forEach (P := fun _ ↦ False) fun s hs ↦ ?_).of_iff ?_
  · exact decides_accuse hm (hm.mem_walk_of_signature hh (mem_unlabelled.mp hs).2.1) _
  · simp only [mem_unlabelled, imp_false, not_and, Option.ne_none_iff_isSome]
    exact ⟨fun hall htwo s hs ↦ hall s htwo hs, fun hall s htwo hs ↦ hall htwo s hs⟩

theorem decides_runSee (hm : m.IsTree) (hl : m.Legible) :
    Decides (runSee (Index.build m) m (.ok excluded)) (m.SeeTagsLead excluded) := by
  refine decides_forTags hm hl fun owner ho c hc t ht ↦ ?_
  have hparts : ∀ p ∈ t.content, p.tag.IsTextOrNull := fun p hp ↦ hl.tags owner ho c hc p
    (List.mem_append_right _ (List.mem_flatMap.mpr ⟨t, List.mem_of_mem_filter ht, hp⟩))
  obtain ⟨texts, htexts⟩ :=
    BlockTag.exists_seeTargets_iff.mpr fun p hp ↦ fun _ ↦ (hparts p hp).isName
  refine Decides.ofResult htexts ((decides_mentions hm ho seeMessage texts).of_iff ?_)
  exact forall_congr' fun text ↦ imp_congr_left (BlockTag.mem_seeTargets htexts)

theorem decides_runLinks (hm : m.IsTree) (hl : m.Legible) :
    Decides (runLinks (Index.build m) m (.ok excluded)) (m.LinksLead excluded) := by
  refine decides_forOwn hm hl fun h hh ↦ ?_
  rw [linksOf]
  cases hcomment : (m.get h).comment with
  | none =>
    refine Decides.nothing.of_iff ?_
    simp
  | some c =>
    obtain ⟨texts, htexts⟩ :=
      Comment.exists_linkTargets_iff.mpr fun p hp ↦ fun _ ↦ (hl.tags h hh c hcomment p hp).isName
    refine Decides.ofResult htexts ((decides_mentions hm hh linkMessage texts).of_iff ?_)
    simp only [Comment.mem_linkTargets htexts, Option.some.injEq, forall_eq']
    constructor
    · exact fun hall p hp hlink ↦ hall _ ⟨p, hp, hlink, rfl⟩
    · rintro hall text ⟨p, hp, hlink, rfl⟩
      exact hall p hp hlink

theorem decides_runFires (hm : m.IsTree) (hl : m.Legible) :
    Decides (runFires (Index.build m) m (.ok excluded)) (m.FiresTagsLead excluded) :=
  decides_forTags hm hl fun _ ho _ _ t _ ↦ decides_firesTagTrace hm ho t

/-- **Every check decides what it is there to find out**, and comes to its end. -/
theorem decides_runWith (hm : m.IsTree) (hl : m.Legible) (c : Check) :
    Decides (c.runWith (Index.build m) m (.ok excluded)) (m.Passes excluded c) := by
  cases c with
  | overloads => exact decides_runOverloads hm hl
  | see => exact decides_runSee hm hl
  | links => exact decides_runLinks hm hl
  | fires => exact decides_runFires hm hl

end RefCheck.Check
