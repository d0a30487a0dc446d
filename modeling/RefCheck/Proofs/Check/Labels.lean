import Mathlib.Data.List.TakeWhile
import RefCheck.Proofs.Check.Accused
import RefCheck.Proofs.Index.Carried
import RefCheck.Proofs.Reference.Address

/-!
# Overloads and their labels

The check of overloads asks for a label on every signature of a member that has several. That a signature can
then be referred to depends on two more things, which no check asks for: no signature before it may have the same
label, for the first one is taken, and there must be a way to refer to the class from inside of it. The latter
only fails for a class that is a module as well: what stands in it belongs to the module, so the class is only
reached by the path, and only if it is the first with this path.

`exists_reference_iff` says that this is all. What it says of the signatures that are reported, that no reference
with a label leads to them, holds from everywhere.
-/

namespace RefCheck

open RefCheck.Index

variable {m : Model} {r : Reference} {label : String} {context scope c f s : Handle}

/-! ## What a reference with a label names -/

namespace Index

theorem mem_walk_of_inScope? (hmarker : r.marker ≠ .none)
    (hs : (build m).inScope? m r scope = some s) : scope ∈ m.walk := by
  by_contra hnot
  have hnone := get?_containers_eq_none hnot
  rw [inScope?] at hs
  cases hkind : r.marker with
  | none => exact hmarker hkind
  | inst | static | event =>
    rw [hkind] at hs
    simp [member?, event?, hnone] at hs

theorem exists_owner_of_eventNamed? {name : String} (hscope : scope ∈ m.walk)
    (hs : m.eventNamed? scope name = some s) : ∃ k ∈ m.walk, s ∈ (m.get k).children := by
  rw [Model.eventNamed?] at hs
  split at hs
  · obtain ⟨k, hk, hdeclared⟩ := List.exists_of_findSome?_eq_some hs
    refine ⟨k, ?_, List.mem_of_find?_eq_some hdeclared⟩
    rcases List.mem_cons.mp hk with rfl | hk
    · exact hscope
    · have hboth := List.of_mem_filter hk
      rw [Bool.and_eq_true, List.contains_iff_mem] at hboth
      exact hboth.1
  · cases hs

/-- **What a label leads to** is a child of a declaration, or the first signature of one that has the label. -/
theorem mem_children_or_of_resolve? (hlabel : r.label = some label) (hmarker : r.marker ≠ .none)
    (hs : (build m).resolve? m r context = some s) :
    (∃ k ∈ m.walk, s ∈ (m.get k).children) ∨
      ∃ k ∈ m.walk, (build m).scope? m r context = some k ∧
        ∃ f ∈ (m.get k).children, labelled? m f label = some s := by
  rw [resolve?] at hs
  split at hs
  · cases hs
  · obtain ⟨k, hscope, hs⟩ := Option.bind_eq_some_iff.mp hs
    have hk := mem_walk_of_inScope? hmarker hs
    have hmember : ∀ name isStatic,
        (m.memberNamed? k name isStatic).bind (m.signatureNamed? · r.label) = some s →
          ∃ f ∈ (m.get k).children, labelled? m f label = some s := by
      intro name isStatic hboth
      obtain ⟨f, hf, hs⟩ := Option.bind_eq_some_iff.mp hboth
      rw [hlabel] at hs
      exact ⟨f, Model.mem_children_of_memberNamed? hf, hs⟩
    rw [inScope?_build hk, Model.namedIn?] at hs
    split at hs
    · next hnone => exact absurd hnone hmarker
    · exact .inr ⟨k, hk, hscope, hmember _ _ hs⟩
    · exact .inr ⟨k, hk, hscope, hmember _ _ hs⟩
    · exact .inl (exists_owner_of_eventNamed? hk hs)

/-- In a tree a signature is reached by a label through its own member only. -/
theorem labelled?_of_resolve? (hm : m.IsTree) (hf : f ∈ m.walk) (hsig : s ∈ (m.get f).signatures)
    (hlabel : r.label = some label) (hmarker : r.marker ≠ .none)
    (hs : (build m).resolve? m r context = some s) :
    labelled? m f label = some s ∧
      ∃ k ∈ m.walk, (build m).scope? m r context = some k ∧ f ∈ (m.get k).children := by
  have hparent : (m.get s).parent = some f :=
    hm.parent_owned f hf s (List.mem_append_left _ hsig)
  rcases mem_children_or_of_resolve? hlabel hmarker hs with
    ⟨k, hk, hchild⟩ | ⟨k, hk, hscope, g, hg, hfound⟩
  · -- the signature would be owned twice
    have hown := hm.parent_owned k hk s (List.mem_append_right _ hchild)
    cases hparent.symm.trans hown
    exact absurd hchild (List.disjoint_of_nodup_append (hm.nodup_owned hf) hsig)
  · have hg' := hm.mem_walk_of_child hk hg
    have hown := hm.parent_owned g hg' s
      (List.mem_append_left _ (List.mem_of_find?_eq_some hfound))
    cases hparent.symm.trans hown
    exact ⟨hfound, k, hk, hscope, hg⟩

/-- The first signature with a label is the one that is taken. -/
theorem labelled?_eq_some_iff {before after : List Handle} (hnodup : (m.get f).signatures.Nodup)
    (hsig : (m.get f).signatures = before ++ s :: after) :
    labelled? m f label = some s ↔
      (m.get s).label? = some label ∧ ∀ t ∈ before, (m.get t).label? ≠ some label := by
  rw [labelled?, List.find?_eq_some_iff_append, beq_iff_eq]
  refine and_congr_right fun _ ↦ ?_
  simp only [Bool.not_eq_true', beq_eq_false_iff_ne]
  constructor
  · rintro ⟨before', after', hsig', hnone⟩
    rw [hsig', List.nodup_middle, List.nodup_cons, List.mem_append, not_or] at hnodup
    obtain ⟨⟨hbefore, hafter⟩, -⟩ := hnodup
    obtain ⟨rfl, -⟩ :=
      (List.append_cons_inj_of_notMem hbefore hafter).mp (hsig'.symm.trans hsig)
    exact hnone
  · exact fun hnone ↦ ⟨before, after, hsig, hnone⟩

/-! ## From inside of a class -/

private theorem isModule_of_export? {path : List String} {name : String}
    (hexport : (build m).export? path (some name) = some c) : (m.get c).isModule = false := by
  rw [export?_build, Model.exported?] at hexport
  have hboth := List.find?_some hexport
  rw [Bool.and_eq_true, Bool.not_eq_true'] at hboth
  exact hboth.1

/-- **A class is its own scope** from inside, unless it is a module that is not the first with its path. -/
theorem exists_scope_iff (hcontainer : (m.get c).isContainer = true) :
    (∃ r, (build m).scope? m r c = some c) ↔
      ((m.get c).isModule = true → (build m).export? (m.get c).modulePath none = some c) := by
  constructor
  · rintro ⟨r, hscope⟩ hmodule
    rw [scope?] at hscope
    split at hscope
    · next path _ =>
      cases htype : r.typeName with
      | some name =>
        rw [htype] at hscope
        rw [isModule_of_export? hscope] at hmodule
        cases hmodule
      | none =>
        rw [htype] at hscope
        have hfirst := hscope
        rw [export?_build, Model.exported?] at hfirst
        rw [(Model.mem_modulesAt.mp (List.mem_of_head? hfirst)).2.2]
        exact hscope
    · obtain ⟨k, -, hexport⟩ := Option.bind_eq_some_iff.mp hscope
      rw [isModule_of_export? hexport] at hmodule
      cases hmodule
    · -- the way up ends before the first module
      have hbefore := List.mem_takeWhile_imp (List.mem_of_find?_eq_some hscope)
      rw [hmodule] at hbefore
      cases hbefore
  · intro hfirst
    by_cases hmodule : (m.get c).isModule = true
    · exact ⟨⟨"", some (m.get c).modulePath, none, none, .none, none⟩, hfirst hmodule⟩
    · refine ⟨⟨"", none, none, none, .none, none⟩, ?_⟩
      rw [scope?, Model.containerOf?, Model.enclosing, Model.enclosingTo, List.takeWhile_cons,
        if_pos (by simpa using hmodule)]
      exact List.find?_cons_of_pos (p := fun k ↦ (m.get k).isContainer) hcontainer

theorem memberMarker_ne_none (f : Reflection) : memberMarker f ≠ .none := by
  rw [memberMarker]
  split <;> decide

/-- What the index holds under the name and marker of a member is asked for a label. -/
theorem inScope?_of_member? (hheld : (build m).member? c (m.get f).name (memberMarker (m.get f)) = some f)
    (hname : r.memberName = some (m.get f).name) (hmarker : r.marker = memberMarker (m.get f))
    (hlabel : r.label = some label) : (build m).inScope? m r c = labelled? m f label := by
  rw [memberMarker] at hmarker hheld
  rw [inScope?, hname, hlabel, Option.getD_some]
  split at hmarker
  · next hstatic =>
    rw [if_pos hstatic] at hheld
    simp only [hmarker, hheld]
  · next hstatic =>
    rw [if_neg hstatic] at hheld
    simp only [hmarker, hheld]

end Index

/-! ## Overloads -/

namespace Check

/-- A method that a class or interface keeps under its name, with several signatures; it belongs to the
project. -/
structure IsOverload (m : Model) (excluded : Excluded) (c f : Handle) : Prop where
  mem_walk : c ∈ m.walk
  isContainer : (m.get c).isContainer = true
  mem_children : f ∈ (m.get c).children
  isMethod : (m.get f).kind.meets .method = true
  several : 2 ≤ (m.get f).signatures.length
  held : (Index.build m).member? c (m.get f).name (memberMarker (m.get f)) = some f
  own : m.isOwn excluded f = .ok true

theorem meets_overloadable {k : Kind} (h : k.meets .method = true) :
    k.meets overloadable = true := by
  rw [Kind.meets, bne_iff_ne] at h ⊢
  intro hzero
  rw [overloadable, Kind.or, Nat.and_or_distrib_left, Nat.or_eq_zero_iff] at hzero
  exact h hzero.1

/-- The issues of the check are for the signatures without a label. -/
theorem mem_issues_overloads_iff (hm : m.IsTree) {excluded : Excluded} {ix : Index}
    (hends : (overloads.runWith ix m excluded).fault = none) {i : String × Handle} :
    i ∈ issues (overloads.runWith ix m excluded) ↔ i.1 = missingLabel ∧ ∃ h ∈ m.walk,
      (m.get h).kind.meets overloadable = true ∧ m.isOwn excluded h = .ok true ∧
        i.2 ∈ unlabelled m h := by
  rw [mem_issues_runWith_iff (fault_runWith_eq_none_iff.mp hends)]
  constructor
  · rintro ⟨h, hh, hmeets, hown, hi⟩
    obtain ⟨⟨hmessage, hunlabelled⟩, -⟩ := accuses_of_mem_issues_test hi
    exact ⟨hmessage, h, hh, hmeets, hown, hunlabelled⟩
  · rintro ⟨hmessage, h, hh, hmeets, hown, hunlabelled⟩
    refine ⟨h, hh, hmeets, hown, ?_⟩
    have htest : ∀ s ∈ unlabelled m h, m.isLost s = false := fun s hs ↦
      isLost_eq_false hm (hm.mem_walk_of_signature hh (mem_unlabelled.mp hs).2.1)
    refine mem_issues_forEach_of_fault_eq_none ?_ hunlabelled
      (mem_issues_accuse.mpr ⟨htest _ hunlabelled, by rw [← hmessage]⟩)
    exact Trace.fault_forEach_eq_none_iff.mpr fun s hs ↦ fault_accuse_eq_none_iff.mpr (htest s hs)

namespace IsOverload

variable {excluded : Excluded} {before after : List Handle}

/-- Where the check comes to its end, what it does not report has a label. -/
theorem exists_label (hf : IsOverload m excluded c f) (hm : m.IsTree) {ix : Index}
    (hends : (overloads.runWith ix m excluded).fault = none)
    (hnone : ∀ i ∈ issues (overloads.runWith ix m excluded), i.2 ∉ (m.get f).signatures)
    (hs : s ∈ (m.get f).signatures) : ∃ label, (m.get s).label? = some label := by
  by_contra hnolabel
  have hunlabelled : s ∈ unlabelled m f :=
    mem_unlabelled.mpr ⟨hf.several, hs, Option.eq_none_iff_forall_ne_some.mpr
      fun label hlabel ↦ hnolabel ⟨label, hlabel⟩⟩
  have hreported : (missingLabel, s) ∈ issues (overloads.runWith ix m excluded) :=
    (mem_issues_overloads_iff hm hends).mpr ⟨rfl, f, hm.mem_walk_of_child hf.mem_walk
      hf.mem_children, meets_overloadable hf.isMethod, hf.own, hunlabelled⟩
  exact hnone _ hreported hs

/-- From the class of an overload, a signature with a label is reached if it is the first with this label and the
class is its own scope. -/
theorem reference_iff_first (hf : IsOverload m excluded c f) (hm : m.IsTree)
    (hsig : (m.get f).signatures = before ++ s :: after) (hlabel : (m.get s).label? = some label) :
    (∃ r : Reference, r.memberName = some (m.get f).name ∧ r.marker = memberMarker (m.get f) ∧
        r.label.isSome = true ∧ (Index.build m).resolve? m r c = some s) ↔
      (∀ t ∈ before, (m.get t).label? ≠ some label) ∧
        ((m.get c).isModule = true →
          (Index.build m).export? (m.get c).modulePath none = some c) := by
  have hfwalk := hm.mem_walk_of_child hf.mem_walk hf.mem_children
  have hnodup : (m.get f).signatures.Nodup := (hm.nodup_owned hfwalk).of_append_left
  have hmarker := memberMarker_ne_none (m.get f)
  constructor
  · rintro ⟨r, -, hmember, hsome, hresolve⟩
    obtain ⟨label', hlabel'⟩ := Option.isSome_iff_exists.mp hsome
    have hs : s ∈ (m.get f).signatures := by
      rw [hsig]
      exact List.mem_append_cons_self
    obtain ⟨hfound, k, hk, hscope, hchild⟩ :=
      labelled?_of_resolve? hm hfwalk hs hlabel' (hmember ▸ hmarker) hresolve
    obtain ⟨hsame, hfirst⟩ := (labelled?_eq_some_iff hnodup hsig).mp hfound
    cases hlabel.symm.trans hsame
    -- the member stands in one class only, so this class is the scope
    have hparent := hm.parent_owned k hk f (List.mem_append_right _ hchild)
    cases hparent.symm.trans
      (hm.parent_owned c hf.mem_walk f (List.mem_append_right _ hf.mem_children))
    exact ⟨hfirst, (exists_scope_iff hf.isContainer).mp ⟨r, hscope⟩⟩
  · rintro ⟨hfirst, hmodule⟩
    obtain ⟨r, hscope⟩ := (exists_scope_iff hf.isContainer).mpr hmodule
    have hfound := (labelled?_eq_some_iff hnodup hsig).mpr ⟨hlabel, hfirst⟩
    refine ⟨⟨r.raw, r.modulePath, r.typeName, some (m.get f).name, memberMarker (m.get f),
      some label⟩, rfl, rfl, rfl, ?_⟩
    rw [resolve?, Reference.isLoose, beq_eq_false_iff_ne.mpr hmarker, Bool.false_and,
      if_neg Bool.false_ne_true]
    exact Option.bind_eq_some_iff.mpr
      ⟨c, hscope, (inScope?_of_member? hf.held rfl rfl rfl).trans hfound⟩

end IsOverload

/-- **Which overloads can be told apart.** If nothing is reported of an overloaded method, then from its class a
reference with the name and marker of the method and with a label leads to a signature exactly if no signature
before it has the same label and, where the class is a module too, the class is the first with its path. No
reference with a label to a member leads to a signature that is reported, from wherever it is read. -/
theorem exists_reference_iff (hm : m.IsTree) {excluded : Excluded}
    (hends : (overloads.runWith (Index.build m) m excluded).fault = none) :
    (∀ c f, IsOverload m excluded c f →
      (∀ i ∈ issues (overloads.runWith (Index.build m) m excluded), i.2 ∉ (m.get f).signatures) →
      ∀ before s after, (m.get f).signatures = before ++ s :: after →
        ((∃ r : Reference, r.memberName = some (m.get f).name ∧
            r.marker = memberMarker (m.get f) ∧ r.label.isSome = true ∧
            (Index.build m).resolve? m r c = some s) ↔
          (∀ t ∈ before, (m.get t).label? ≠ (m.get s).label?) ∧
            ((m.get c).isModule = true →
              (Index.build m).export? (m.get c).modulePath none = some c))) ∧
    ∀ i ∈ issues (overloads.runWith (Index.build m) m excluded), ∀ (r : Reference) context,
      r.label.isSome = true → r.marker ≠ .none →
        (Index.build m).resolve? m r context ≠ some i.2 := by
  constructor
  · intro c f hf hnone before s after hsig
    obtain ⟨label, hlabel⟩ := hf.exists_label hm hends hnone (s := s) (by rw [hsig]; simp)
    rw [hlabel]
    exact hf.reference_iff_first hm hsig hlabel
  · intro i hi r context hsome hmarker hresolve
    obtain ⟨label, hlabel⟩ := Option.isSome_iff_exists.mp hsome
    obtain ⟨-, h, hh, -, -, hunlabelled⟩ := (mem_issues_overloads_iff hm hends).mp hi
    obtain ⟨-, hs, hnone⟩ := mem_unlabelled.mp hunlabelled
    obtain ⟨hfound, -⟩ := labelled?_of_resolve? hm hh hs hlabel hmarker hresolve
    have hlabelled := List.find?_some hfound
    rw [hnone] at hlabelled
    cases hlabelled

/-- A class and two modules with one path, the second of which is a class as well. Of the signatures of `run` two
have the same label, and the first one of `stop` has none and is a class too. -/
def crowded : Model where
  name := "p"
  roots := [0, 8, 9]
  reflections := #[
    { placed 1 "C" .classKind with children := [1, 5] },
    { placed 2 "run" .method with signatures := [2, 3, 4], parent := some 0 },
    { labelled "A" with parent := some 1 },
    { labelled "B" with parent := some 1 },
    { labelled "A" with parent := some 1 },
    { placed 3 "stop" .method with signatures := [6, 7], parent := some 0 },
    { placed 4 "stop" (Kind.callSignature.or .classKind) with parent := some 5 },
    { labelled "A" with parent := some 5 },
    placed 5 "m" .module,
    { placed 6 "m" (Kind.module.or .classKind) with children := [10] },
    { placed 7 "go" .method with signatures := [11, 12], parent := some 9 },
    { labelled "P" with parent := some 10 },
    { labelled "Q" with parent := some 10 }]
where
  /-- A declaration without a comment. -/
  placed (id : Int) (name : String) (kind : Kind) : Reflection :=
    .free id name kind none [⟨"a.ts", 1, .null⟩] false
  /-- A signature with a label. -/
  labelled (label : String) : Reflection :=
    .free 8 "" .callSignature (some (Reference.labelOnly label)) [] false

theorem isTree_crowded : crowded.IsTree := ⟨by decide, by decide, by decide, by decide⟩

theorem issues_crowded :
    (overloads.runWith (Index.build crowded) crowded (.ok defaultExcluded)).fault = none ∧
      issues (overloads.runWith (Index.build crowded) crowded (.ok defaultExcluded))
        = [(missingLabel, 6)] :=
  ⟨Option.isNone_iff_eq_none.mp (by decide +kernel), by decide +kernel⟩

theorem isOverload_run : IsOverload crowded (.ok defaultExcluded) 0 1 where
  mem_walk := by decide
  isContainer := by decide
  mem_children := by decide
  isMethod := by decide
  several := by decide
  held := (member?_build (by decide) "run" false).trans (by decide)
  own := rfl

/-- The second signature of `run` can be referred to, and the first one of `stop` cannot. -/
theorem exists_reference_crowded :
    (∃ r : Reference, r.memberName = some "run" ∧ r.marker = .inst ∧ r.label.isSome = true ∧
      (Index.build crowded).resolve? crowded r 0 = some 3) ∧
    ∀ (r : Reference) context, r.label.isSome = true → r.marker ≠ .none →
      (Index.build crowded).resolve? crowded r context ≠ some 6 := by
  obtain ⟨hends, hissues⟩ := issues_crowded
  obtain ⟨hfirst, hreported⟩ := exists_reference_iff isTree_crowded hends
  rw [hissues] at hfirst hreported
  constructor
  · refine (hfirst 0 1 isOverload_run (by decide) [2] 3 [4] rfl).mpr ⟨by decide +kernel, ?_⟩
    intro hmodule
    exact absurd hmodule (by decide)
  · exact hreported (missingLabel, 6) List.mem_cons_self

/-- **Accepted overloads without a reference of their own.** Nothing is reported of `run` and of `go`. But no
reference from the class leads to the third signature of `run`, for the first has the same label, nor from the
module to a signature of `go`. And a label alone, with no member before it, leads to what is reported. -/
theorem not_exists_reference_crowded :
    (IsOverload crowded (.ok defaultExcluded) 0 1 ∧ 4 ∈ (crowded.get 1).signatures ∧
      ¬∃ r : Reference, r.memberName = some "run" ∧ r.marker = .inst ∧ r.label.isSome = true ∧
        (Index.build crowded).resolve? crowded r 0 = some 4) ∧
    (IsOverload crowded (.ok defaultExcluded) 9 10 ∧ 11 ∈ (crowded.get 10).signatures ∧
      ¬∃ r : Reference, r.memberName = some "go" ∧ r.marker = .inst ∧ r.label.isSome = true ∧
        (Index.build crowded).resolve? crowded r 9 = some 11) ∧
    issues (overloads.runWith (Index.build crowded) crowded (.ok defaultExcluded))
      = [(missingLabel, 6)] ∧
    ∃ r : Reference, r.label.isSome = true ∧
      (Index.build crowded).resolve? crowded r 6 = some 6 := by
  have hgo : IsOverload crowded (.ok defaultExcluded) 9 10 :=
    ⟨by decide, by decide, by decide, by decide, by decide,
      (member?_build (by decide) "go" false).trans (by decide), rfl⟩
  refine ⟨⟨isOverload_run, by decide, ?_⟩, ⟨hgo, by decide, ?_⟩, issues_crowded.2, ?_⟩
  · rintro ⟨r, -, hmarker, hsome, hresolve⟩
    obtain ⟨label, hlabel⟩ := Option.isSome_iff_exists.mp hsome
    obtain ⟨hfound, -⟩ := labelled?_of_resolve? isTree_crowded (f := 1) (by decide) (by decide)
      hlabel (by rw [hmarker]; decide) hresolve
    have hsig : (crowded.get 1).signatures = [2, 3] ++ 4 :: [] := rfl
    obtain ⟨hthird, hfirst⟩ := (labelled?_eq_some_iff (by decide) hsig).mp hfound
    have hsame : (crowded.get 2).label? = (crowded.get 4).label? := by decide +kernel
    exact hfirst 2 List.mem_cons_self (hsame.trans hthird)
  · rintro ⟨r, -, hmarker, hsome, hresolve⟩
    obtain ⟨label, hlabel⟩ := Option.isSome_iff_exists.mp hsome
    obtain ⟨-, k, hk, hscope, hchild⟩ := labelled?_of_resolve? isTree_crowded (f := 10) (by decide)
      (by decide) hlabel (by rw [hmarker]; decide) hresolve
    have hclass : ∀ k ∈ crowded.walk, 10 ∈ (crowded.get k).children → k = 9 := by decide
    obtain rfl := hclass k hk hchild
    have hexport := (exists_scope_iff (by decide)).mp ⟨r, hscope⟩ (by decide)
    rw [export?_build] at hexport
    revert hexport
    decide
  · refine ⟨⟨"", none, none, none, .none, some "A"⟩, rfl, ?_⟩
    rw [resolve?_build_eq_target? isTree_crowded (by decide)]
    decide

end Check

end RefCheck
