import RefCheck.Proofs.Index.Resolution
import RefCheck.Proofs.Reference.Written

/-!
# Addresses lead back

Whatever an index holds can be asked for by a text: the path of the module, the name of the type, and then
the marker and the name of the member, the label of a signature, or the name of an event. Each of these texts
resolves to what it was made from.

Names have to leave the text readable. A module or a type is ended by the characters that start what follows
it, and the name of a member by the colon before a label; labels and the names of events stand last and may
hold anything, as long as trimming leaves them alone. A member `event` of instances is the one whose labels
cannot be written, since its text reads as an event.
-/

namespace RefCheck.Reference

open RefCheck.Text RefCheck.Model RefCheck.Index

variable {ix : Index} {m : Model}

/-! ## Names that can be written -/

/-- A name that can stand in the address of a type. -/
structure IsAddressable (name : String) : Prop where
  /-- There is something to write. -/
  ne_empty : name ≠ ""
  /-- None of its characters ends a part of the address, or separates words. -/
  plain : ∀ c ∈ name.toList, c ≠ '/' ∧ c ≠ '~' ∧ c ≠ '#' ∧ c ≠ '.' ∧ isBlank c = false

/-- A name that can stand in the address of a member. -/
structure IsMemberName (name : String) : Prop where
  /-- There is something to write. -/
  ne_empty : name ≠ ""
  /-- None of its characters starts a label, or separates words. -/
  plain : ∀ c ∈ name.toList, c ≠ ':' ∧ isBlank c = false

theorem IsAddressable.isWritable {path : List String}
    (hpath : ∀ segment ∈ path, IsAddressable segment) : IsWritable path := by
  intro segment hsegment
  obtain ⟨hne, hplain⟩ := hpath segment hsegment
  exact ⟨hne, fun h ↦ (hplain _ h).1 rfl, fun h ↦ (hplain _ h).2.1 rfl,
    fun h ↦ (hplain _ h).2.2.1 rfl⟩

private theorem IsAddressable.inType {name : String} (hname : IsAddressable name) :
    ∀ c ∈ name.toList, inType c = true := by
  intro c hc
  obtain ⟨-, -, hhash, hdot, -⟩ := hname.plain c hc
  rw [Reference.inType, Bool.and_eq_true, bne_iff_ne, bne_iff_ne]
  exact ⟨hhash, hdot⟩

/-- What follows a type: it starts as a member does, and nothing of it is trimmed. -/
private structure Follows (suffix : String) : Prop where
  start : ∀ c ∈ suffix.toList.head?, c = '#' ∨ c = '.'
  kept : trimEnd suffix.toList = suffix.toList

/-- The address of a type is read up to what follows it. -/
private theorem parse?_typeAddress {path : List String} {name suffix : String}
    (hpath : ∀ segment ∈ path, IsAddressable segment) (hname : IsAddressable name)
    (hsuffix : Follows suffix) :
    ∃ raw, parse? (typeAddress path name ++ suffix)
      = some (ofParts raw (some path) (some name.toList) (readMember suffix.toList)) := by
  have hkept : trimEnd (name.toList ++ suffix.toList) = name.toList ++ suffix.toList := by
    by_cases hnil : suffix.toList = []
    · rw [hnil, List.append_nil]
      exact trimEnd_of_forall_not_blank fun c hc ↦ (hname.plain c hc).2.2.2.2
    · rw [trimEnd_append _ (by rwa [hsuffix.kept]), hsuffix.kept]
  have hne : trimEnd (name.toList ++ suffix.toList) ≠ [] := by
    rw [hkept]
    exact List.append_ne_nil_of_left_ne_nil
      (fun hnil ↦ hname.ne_empty (String.toList_eq_nil_iff.mp hnil)) _
  have hread := parse?_absolute (typeAddress path name ++ suffix)
    (by rw [String.toList_append, toList_typeAddress, List.append_assoc]; rfl)
    (IsAddressable.isWritable hpath) hne
  have hstop : suffix.toList.takeWhile inType = [] ∧
      suffix.toList.dropWhile inType = suffix.toList := by
    cases hchars : suffix.toList with
    | nil => exact ⟨rfl, rfl⟩
    | cons c rest =>
      have hc : ¬inType c = true := by
        rcases hsuffix.start c (by rw [hchars]; rfl) with rfl | rfl <;> decide
      exact ⟨List.takeWhile_cons_of_neg hc, List.dropWhile_cons_of_neg hc⟩
  rw [hkept, List.takeWhile_append_of_pos hname.inType, List.dropWhile_append_of_pos hname.inType,
    hstop.1, hstop.2, List.append_nil] at hread
  exact ⟨_, hread⟩

/-- What follows the address of a type that is exported is looked up in the type. -/
private theorem resolveText?_typeAddress {path : List String} {name suffix : String}
    {type : Handle} {member : Member} (hpath : ∀ segment ∈ path, IsAddressable segment)
    (hname : IsAddressable name) (hsuffix : Follows suffix)
    (hexport : ix.export? path (some name) = some type)
    (hread : readMember suffix.toList = member)
    (hloose : member.marker = .none → member.name = none)
    (context : Handle) :
    ix.resolveText? m (typeAddress path name ++ suffix) context
      = ix.inScope? m (ofParts [] none none member) type := by
  obtain ⟨raw, hparse⟩ := parse?_typeAddress hpath hname hsuffix
  have hnot : ¬(ofParts raw (some path) (some name.toList) member).isLoose = true := by
    rw [isLoose, ofParts, Bool.and_eq_true, beq_iff_eq]
    rintro ⟨hmarker, hsome⟩
    dsimp only at hmarker hsome
    rw [hloose hmarker] at hsome
    cases hsome
  have hscope : ix.scope? m (ofParts raw (some path) (some name.toList) member) context
      = some type := by
    rw [scope?, ofParts]
    dsimp only [Option.map_some]
    rw [String.ofList_toList, hexport]
  rw [resolveText?, hparse, hread, Option.bind_some, resolve?, if_neg hnot, hscope]
  -- looking up in a scope does not depend on how the scope was written
  rfl

/-! ## Members and signatures -/

private theorem memberMarker_eq (r : Reflection) : memberMarker r = (marked r.isStatic).1 := by
  rw [memberMarker, marked]
  split <;> rfl

private theorem toList_text_memberMarker (r : Reflection) :
    (memberMarker r).text.toList = [(marked r.isStatic).2] := by
  rw [memberMarker, marked]
  split <;> rfl

private theorem marked_ne_none (isStatic : Bool) : (marked isStatic).1 ≠ .none := by
  cases isStatic <;> decide

/-- A member that a type holds is what its name and marker name there, or a label picks its signature. -/
private theorem inScope?_marked {type c : Handle} {name : String}
    (hheld : ix.member? type name (memberMarker (m.get c)) = some c) (label : Option (List Char)) :
    ix.inScope? m
        (ofParts [] none none ⟨(marked (m.get c).isStatic).1, some name.toList, label⟩) type
      = match label with
        | none => some c
        | some label => labelled? m c (String.ofList label) := by
  rw [memberMarker_eq] at hheld
  have hname : ((some name.toList).map String.ofList).getD "" = name := String.ofList_toList
  rw [inScope?, ofParts]
  dsimp only
  rw [hname]
  cases hstatic : (m.get c).isStatic with
  | false | true =>
    rw [hstatic] at hheld
    simp only [marked, if_true, if_false, Bool.false_eq_true] at hheld ⊢
    rw [hheld]
    cases label <;> rfl

private theorem marked_start (isStatic : Bool) :
    (marked isStatic).2 = '#' ∨ (marked isStatic).2 = '.' := by
  cases isStatic <;> decide

/-- Nothing is left to trim of a label. -/
private theorem trimEnd_label {r : Reflection} {label : String} (hlabel : r.label? = some label) :
    label.toList ≠ [] ∧ trimEnd label.toList = label.toList := by
  rw [Reflection.label?] at hlabel
  split at hlabel
  · next tag _ =>
    split at hlabel
    · cases hlabel
    · next hne =>
      cases hlabel
      rw [BlockTag.text, trimString] at hne ⊢
      rw [String.toList_ofList]
      exact ⟨fun hnil ↦ hne (String.ofList_eq_empty_iff.mpr hnil), trimEnd_trim _⟩
  · cases hlabel

/-- What starts with the marker of a member can follow a type. -/
private theorem start_memberMarker (r : Reflection) (rest : String) :
    ∀ c ∈ ((memberMarker r).text ++ rest).toList.head?, c = '#' ∨ c = '.' := by
  intro c hc
  rw [String.toList_append, toList_text_memberMarker] at hc
  cases hc
  exact marked_start r.isStatic

private theorem follows_member {r : Reflection} (hname : IsMemberName r.name) :
    Follows ((memberMarker r).text ++ r.name) := by
  refine ⟨start_memberMarker r r.name, ?_⟩
  rw [String.toList_append, toList_text_memberMarker]
  refine trimEnd_of_forall_not_blank ?_
  intro c hc
  rcases List.mem_cons.mp hc with rfl | hc
  · rcases marked_start r.isStatic with h | h <;> rw [h] <;> decide
  · exact (hname.plain c hc).2

private theorem follows_labelled {r s : Reflection} {label : String}
    (hlabel : s.label? = some label) :
    Follows ((memberMarker r).text ++ r.name ++ ":" ++ label) := by
  obtain ⟨hne, hkept⟩ := trimEnd_label hlabel
  constructor
  · rw [String.append_assoc, String.append_assoc]
    exact start_memberMarker r _
  · rw [String.toList_append, trimEnd_append _ (by rwa [hkept]), hkept]

/-- **The address of a member** leads to it. -/
theorem resolveText?_memberAddress {path : List String} {name : String} {type c : Handle}
    (hpath : ∀ segment ∈ path, IsAddressable segment) (hname : IsAddressable name)
    (hexport : ix.export? path (some name) = some type) (hmember : IsMemberName (m.get c).name)
    (hheld : ix.member? type (m.get c).name (memberMarker (m.get c)) = some c) (context : Handle) :
    ix.resolveText? m
      (typeAddress path name ++ ((memberMarker (m.get c)).text ++ (m.get c).name)) context
        = some c := by
  have hcolon : ':' ∉ (m.get c).name.toList := fun h ↦ (hmember.plain ':' h).1 rfl
  have hread : readMember ((memberMarker (m.get c)).text ++ (m.get c).name).toList
      = ⟨(marked (m.get c).isStatic).1, some (m.get c).name.toList, none⟩ := by
    rw [String.toList_append, toList_text_memberMarker]
    exact readMember_name _ hcolon
  rw [resolveText?_typeAddress hpath hname (follows_member hmember) hexport hread
    (fun h ↦ absurd h (marked_ne_none _)), inScope?_marked hheld]

/-- **The address of a signature** leads to it, if no signature before it has its label. -/
theorem resolveText?_signatureAddress {path : List String} {name label : String} {type c s : Handle}
    {before after : List Handle} (hpath : ∀ segment ∈ path, IsAddressable segment)
    (hname : IsAddressable name) (hexport : ix.export? path (some name) = some type)
    (hmember : IsMemberName (m.get c).name)
    (hheld : ix.member? type (m.get c).name (memberMarker (m.get c)) = some c)
    (hsignatures : (m.get c).signatures = before ++ s :: after)
    (hlabel : (m.get s).label? = some label)
    (hfirst : ∀ t ∈ before, (m.get t).label? ≠ some label)
    (hevent : (m.get c).isStatic = true ∨ (m.get c).name ≠ "event") (context : Handle) :
    ix.resolveText? m (typeAddress path name ++
      ((memberMarker (m.get c)).text ++ (m.get c).name ++ ":" ++ label)) context = some s := by
  have hcolon : ':' ∉ (m.get c).name.toList := fun h ↦ (hmember.plain ':' h).1 rfl
  have hevent := hevent.imp_right fun hne heq ↦ hne (String.toList_inj.mp heq)
  have hread : readMember ((memberMarker (m.get c)).text ++ (m.get c).name ++ ":" ++ label).toList
      = ⟨(marked (m.get c).isStatic).1, some (m.get c).name.toList, some label.toList⟩ := by
    rw [String.toList_append, String.toList_append, String.toList_append, toList_text_memberMarker,
      List.append_assoc]
    exact readMember_label _ hcolon (trimEnd_label hlabel).1 hevent
  rw [resolveText?_typeAddress hpath hname (follows_labelled hlabel) hexport hread
    (fun h ↦ absurd h (marked_ne_none _)), inScope?_marked hheld]
  dsimp only
  rw [String.ofList_toList, labelled?, List.find?_eq_some_iff_append]
  refine ⟨by rw [hlabel]; exact beq_self_eq_true _, before, after, hsignatures, ?_⟩
  intro t ht
  simpa using hfirst t ht

/-! ## Types and events -/

/-- **The address of a type** leads to it. -/
theorem resolveText?_typeAddress_self {path : List String} {name : String} {type : Handle}
    (hpath : ∀ segment ∈ path, IsAddressable segment) (hname : IsAddressable name)
    (hexport : ix.export? path (some name) = some type) (context : Handle) :
    ix.resolveText? m (typeAddress path name) context = some type := by
  have hnone : Follows "" := ⟨by simp, rfl⟩
  have hself :=
    resolveText?_typeAddress (m := m) hpath hname hnone hexport rfl (fun _ ↦ rfl) context
  rw [String.append_empty] at hself
  exact hself

private theorem follows_event {name : String} (hne : name ≠ "") (htrim : trimString name = name) :
    Follows ("#event:" ++ name) := by
  have hkept : trimEnd name.toList = name.toList := by
    rw [← htrim, trimString, String.toList_ofList, trimEnd_trim]
  constructor
  · intro c hc
    rw [String.toList_append] at hc
    cases hc
    exact .inl rfl
  · rw [String.toList_append, trimEnd_append _, hkept]
    rw [hkept]
    exact fun hnil ↦ hne (String.toList_eq_nil_iff.mp hnil)

/-- The address of an event is read as an event of the type. -/
theorem parse?_eventAddress {path : List String} {name event : String}
    (hpath : ∀ segment ∈ path, IsAddressable segment) (hname : IsAddressable name) (hne : event ≠ "")
    (htrim : trimString event = event) :
    ∃ raw, parse? (typeAddress path name ++ ("#event:" ++ event))
      = some ⟨raw, some path, some name, some event, .event, none⟩ := by
  obtain ⟨raw, hread⟩ := parse?_typeAddress hpath hname (follows_event hne htrim)
  have hchars : ("#event:" ++ event).toList = eventLead ++ event.toList := String.toList_append
  refine ⟨String.ofList raw, ?_⟩
  rw [hread, hchars, readMember_event, ofParts]
  simp only [Option.map_some, Option.map_none, String.ofList_toList]

/-- **The address of an event** leads to it, if no event of the type that stands before it has its name. -/
theorem resolveText?_eventAddress (hm : m.IsTree) {path : List String} {name : String}
    {type e : Handle} {before after : List Handle}
    (hpath : ∀ segment ∈ path, IsAddressable segment) (hname : IsAddressable name)
    (hexport : (build m).export? path (some name) = some type)
    (hcontainer : (m.get type).isContainer = true)
    (hchildren : (m.get type).children = before ++ e :: after)
    (hkind : (m.get e).kind.meets .event = true) (hne : (m.get e).name ≠ "")
    (htrim : trimString (m.get e).name = (m.get e).name)
    (hfirst : ∀ d ∈ before, (m.get d).kind.meets .event = true → (m.get d).name ≠ (m.get e).name)
    (context : Handle) :
    (build m).resolveText? m (typeAddress path name ++ ("#event:" ++ (m.get e).name)) context
      = some e := by
  have hwalk : type ∈ m.walk := mem_walk_of_exported? hm ((export?_build m _ _).symm.trans hexport)
  have hread : readMember ("#event:" ++ (m.get e).name).toList
      = ⟨.event, some (m.get e).name.toList, none⟩ := by
    rw [String.toList_append]
    exact readMember_event _
  have hdeclared : m.declaredEvent? (m.get e).name type = some e := by
    rw [declaredEvent?, List.find?_eq_some_iff_append]
    refine ⟨by simp [hkind], before, after, hchildren, ?_⟩
    intro d hd
    rw [Bool.not_eq_true', Bool.and_eq_false_iff, beq_eq_false_iff_ne]
    by_cases hevent : (m.get d).kind.meets .event = true
    · exact .inr (hfirst d hd hevent)
    · exact .inl (Bool.eq_false_iff.mpr hevent)
  rw [resolveText?_typeAddress hpath hname (follows_event hne htrim) hexport hread
    (fun h ↦ by cases h), inScope?, ofParts]
  dsimp only [Option.map_some, Option.getD_some]
  rw [String.ofList_toList, event?_build hwalk, eventNamed?, if_pos hcontainer,
    List.findSome?_cons_of_isSome (by rw [hdeclared]; rfl), hdeclared]

/-! ## Everything that is held -/

/-- **Addresses lead back.** From every context, the address of a class or interface that a module exports
resolves to it, that of a member which the index holds to the member, that of a labelled signature of such a
member to the signature, and that of an event which the class declares to the event. -/
theorem address_resolves (hm : m.IsTree) {path : List String} {name : String} {type : Handle}
    (hpath : ∀ segment ∈ path, IsAddressable segment) (hname : IsAddressable name)
    (hexport : (build m).export? path (some name) = some type)
    (hcontainer : (m.get type).isContainer = true) (context : Handle) :
    (build m).resolveText? m (typeAddress path name) context = some type ∧
    (∀ c : Handle, IsMemberName (m.get c).name →
      (build m).member? type (m.get c).name (memberMarker (m.get c)) = some c →
        (build m).resolveText? m
            (typeAddress path name ++ ((memberMarker (m.get c)).text ++ (m.get c).name)) context
          = some c ∧
        ∀ before s after label, (m.get c).signatures = before ++ s :: after →
          (m.get s).label? = some label → (∀ t ∈ before, (m.get t).label? ≠ some label) →
          ¬(memberMarker (m.get c) = .inst ∧ (m.get c).name = "event") →
            (build m).resolveText? m (typeAddress path name ++
                ((memberMarker (m.get c)).text ++ (m.get c).name ++ ":" ++ label)) context
              = some s) ∧
    ∀ before e after, (m.get type).children = before ++ e :: after →
      (m.get e).kind.meets .event = true → (m.get e).name ≠ "" →
      trimString (m.get e).name = (m.get e).name →
      (∀ d ∈ before, (m.get d).kind.meets .event = true → (m.get d).name ≠ (m.get e).name) →
        (build m).resolveText? m (typeAddress path name ++ ("#event:" ++ (m.get e).name)) context
          = some e := by
  refine ⟨resolveText?_typeAddress_self hpath hname hexport context, ?_, ?_⟩
  · intro c hmember hheld
    refine ⟨resolveText?_memberAddress hpath hname hexport hmember hheld context, ?_⟩
    intro before s after label hsignatures hlabel hfirst hevent
    have hreadable : (m.get c).isStatic = true ∨ (m.get c).name ≠ "event" := by
      by_cases hstatic : (m.get c).isStatic = true
      · exact .inl hstatic
      · refine .inr fun heq ↦ hevent ⟨?_, heq⟩
        rw [memberMarker, if_neg hstatic]
    exact resolveText?_signatureAddress hpath hname hexport hmember hheld hsignatures hlabel hfirst
      hreadable context
  · intro before e after hchildren hkind hne htrim hfirst
    exact resolveText?_eventAddress hm hpath hname hexport hcontainer hchildren hkind hne htrim
      hfirst context

/-- A comment that holds a label only. -/
def labelOnly (label : String) : Comment := ⟨[], [⟨.str labelTag, [⟨.text, label, .null⟩]⟩]⟩

/-- A class with a method that has two labelled signatures, and with an event whose name has a colon. -/
def overloaded : Model where
  name := "p"
  roots := [0]
  reflections := #[
    { Reflection.free 1 "a/b" .module none [] false with children := [1] },
    { Reflection.free 2 "C" .classKind none [] false with children := [2, 5], parent := some 0 },
    { Reflection.free 3 "m" .method none [] false with signatures := [3, 4], parent := some 1 },
    { Reflection.free 4 "m" .callSignature (labelOnly "A") [] false with parent := some 2 },
    { Reflection.free 5 "m" .callSignature (labelOnly "B:x y") [] false with parent := some 2 },
    { Reflection.free 6 "change:x" .event none [] false with parent := some 1 }]

theorem isTree_overloaded : overloaded.IsTree where
  finite := by decide
  nodup_walk := by decide
  parent_root := by decide
  parent_owned := by decide

/-- The class, the method, its second signature and the event, each by its address. -/
theorem resolveText?_overloaded :
    (build overloaded).resolveText? overloaded "module:a/b~C" 0 = some 1 ∧
      (build overloaded).resolveText? overloaded "module:a/b~C#m" 0 = some 2 ∧
      (build overloaded).resolveText? overloaded "module:a/b~C#m:B:x y" 0 = some 4 ∧
      (build overloaded).resolveText? overloaded "module:a/b~C#event:change:x" 0 = some 5 := by
  -- all names here have one character; a decision would go over every character there is
  have hpath : ∀ segment ∈ ["a", "b"], IsAddressable segment := by
    intro segment hsegment
    rcases List.mem_pair.mp hsegment with rfl | rfl
    · exact ⟨by decide, List.forall_mem_singleton.mpr (by decide)⟩
    · exact ⟨by decide, List.forall_mem_singleton.mpr (by decide)⟩
  have hname : IsAddressable "C" := ⟨by decide, List.forall_mem_singleton.mpr (by decide)⟩
  have hmethod : IsMemberName "m" := ⟨by decide, List.forall_mem_singleton.mpr (by decide)⟩
  have hexport : (build overloaded).export? ["a", "b"] (some "C") = some 1 := by decide
  obtain ⟨htype, hmember, hevent⟩ :=
    address_resolves isTree_overloaded hpath hname hexport (by decide) 0
  obtain ⟨hself, hlabel⟩ := hmember 2 hmethod (by decide)
  exact ⟨htype, hself,
    hlabel [3] 4 [] "B:x y" rfl (by decide +kernel) (by decide +kernel) (by decide),
    hevent [2] 5 [] rfl (by decide) (by decide) (by decide) (by decide)⟩

end RefCheck.Reference
