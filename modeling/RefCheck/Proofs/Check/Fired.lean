import RefCheck.Proofs.Check.Outside
import RefCheck.Proofs.Index.Ancestors
import RefCheck.Proofs.Reference.Address
import RefCheck.Proofs.Reference.Spelling

/-!
# The ways to name an event

A `@fires` tag names an event by its bare name, by its name after `#event:`, or by that after the address of the
class. Two rules decide what is made of the word: the tag puts `#event:` before a word that does not start like a
reference, and the grammar takes a word apart by how it starts. The two agree on every word, so what a tag asks for
is never loose, and it is no reference only for three single characters (`BlockTag.exists_firesReference`).

For the class around the comment the three ways come to one question, namely whether the class or what it descends
from declares the event (`Index.event?_eq_none_iff`). So the check reports all three or none of them
(`Check.fires_forms_agree`).
-/

namespace RefCheck

open RefCheck.Text RefCheck.Reference RefCheck.Log

/-! ## Words that a tag asks for -/

variable {word : String}

private theorem any_referenceLeads_iff {cs : List Char} :
    (referenceLeads.any fun lead ↦ startsWith lead cs) = true ↔ ∃ lead ∈ partLeads, lead.toList <+: cs := by
  have hleads : referenceLeads = partLeads.map String.toList := rfl
  simp only [hleads, List.any_map, List.any_eq_true, Function.comp_apply, startsWith_eq_true_iff]

/-- A word that starts like a reference is read as it stands. -/
theorem Check.reading_of_lead (h : ∃ lead ∈ partLeads, lead.toList <+: word.toList) :
    fires.reading word = word := by
  rw [reading, if_pos rfl, eventReference, if_pos (any_referenceLeads_iff.mpr h), String.ofList_toList]

/-- Any other word is read as the name of an event. -/
theorem Check.reading_of_bare (h : ¬∃ lead ∈ partLeads, lead.toList <+: word.toList) :
    fires.reading word = "#event:" ++ word := by
  have hmarked : eventLead ++ word.toList = ("#event:" ++ word).toList := String.toList_append.symm
  rw [reading, if_pos rfl, eventReference, if_neg (mt any_referenceLeads_iff.mp h), hmarked,
    String.ofList_toList]

/-- Of the words that start like a reference, only single characters are none. -/
theorem isTrimmedReference_eq_false_iff (hlead : ∃ lead ∈ partLeads, lead.toList <+: word.toList) :
    isTrimmedReference word.toList = false ↔ word ∈ loneLeads := by
  have hlone : ∀ lone ∈ loneLeads, isTrimmedReference lone.toList = false := by decide
  refine ⟨fun hnone ↦ ?_, hlone word⟩
  cases hchars : word.toList with
  | nil =>
    have hsome : ∀ lead ∈ partLeads, lead.toList ≠ [] := by decide
    obtain ⟨lead, hmem, hstarts⟩ := hlead
    rw [hchars, List.prefix_nil] at hstarts
    exact absurd hstarts (hsome lead hmem)
  | cons c cs =>
    have hfirst : c ≠ 'h' ∧ (cs = [] → String.ofList (c :: cs) ∈ loneLeads) := by
      rw [hchars, exists_partLeads_iff] at hlead
      rcases hlead with ⟨rest, hrest⟩ | rfl | rfl | rfl
      · obtain ⟨rfl, rfl⟩ := List.cons.inj (show 'm' :: ("odule:".toList ++ rest) = c :: cs from hrest)
        exact ⟨by decide, fun hnil ↦ by cases hnil⟩
      all_goals exact ⟨by decide, by rintro rfl; decide⟩
    have hnil : cs = [] := by
      by_contra hcs
      rw [hchars, isTrimmedReference_cons hfirst.1 hcs] at hnone
      cases hnone
    rw [← String.ofList_toList (s := word), hchars]
    exact hfirst.2 hnil

/-- What is asked for by a word is a reference unless the word is one of three characters, and is not loose. -/
theorem parse?_reading (hne : word ≠ "") (hblank : ∀ c ∈ word.toList, isBlank c = false) :
    (parse? (Check.fires.reading word) = none ↔ word ∈ loneLeads) ∧
      ∀ r, parse? (Check.fires.reading word) = some r → r.isLoose = false := by
  by_cases hlead : ∃ lead ∈ partLeads, lead.toList <+: word.toList
  · have hread : parse? word
        = if isTrimmedReference word.toList then some (ofTrimmed word.toList) else none := by
      rw [parse?, ofChars?, trim_of_forall_not_blank hblank]
    rw [Check.reading_of_lead hlead, hread, ← isTrimmedReference_eq_false_iff hlead]
    cases isTrimmedReference word.toList with
    | false => exact ⟨iff_of_true rfl rfl, fun r hr ↦ by cases hr⟩
    | true =>
      refine ⟨iff_of_false (Option.some_ne_none _) (fun h ↦ by cases h), fun r hr ↦ ?_⟩
      cases hr
      have hloose := isLoose_ofTrimmed_iff (mt String.toList_eq_nil_iff.mp hne)
      obtain ⟨lead, hmem, hstarts⟩ := hlead
      rw [Bool.eq_false_iff, ne_eq, hloose]
      exact fun hnone ↦ hnone lead hmem hstarts
  · have hlone : word ∉ loneLeads := by
      have hleads : ∀ lone ∈ loneLeads, lone ∈ partLeads := by decide
      exact fun hmem ↦ hlead ⟨word, hleads word hmem, List.prefix_rfl⟩
    rw [Check.reading_of_bare hlead, parse?_event hblank]
    refine ⟨iff_of_false (Option.some_ne_none _) hlone, fun r hr ↦ ?_⟩
    cases hr
    rfl

/-- What a tag asks for is within the grammar of references. -/
structure BlockTag.FiresReference (t : BlockTag) (event : String) : Prop where
  /-- The tag asks for it. -/
  fired : t.firedEvent? = some event
  /-- It is a reference unless the first word of the tag is one of three characters. -/
  none_iff : parse? event = none ↔ ∃ lone ∈ loneLeads, firstWord t.text.toList = lone.toList
  /-- It is not loose. -/
  not_loose : ∀ r, parse? event = some r → r.isLoose = false

/-- **What is asked for is within the grammar**, for every tag that is not blank. -/
theorem BlockTag.exists_firesReference {t : BlockTag} (h : ∃ c ∈ t.text.toList, isBlank c = false) :
    ∃ event, t.FiresReference event := by
  have hfirst := firstWord_ne_nil h
  have hword : (String.ofList (firstWord t.text.toList)).toList = firstWord t.text.toList := String.toList_ofList
  have hne : String.ofList (firstWord t.text.toList) ≠ "" := mt String.ofList_eq_empty_iff.mp hfirst
  have hblank : ∀ c ∈ (String.ofList (firstWord t.text.toList)).toList, isBlank c = false := by
    rw [hword]
    exact fun c ↦ isBlank_of_mem_firstWord
  obtain ⟨hnone, hloose⟩ := parse?_reading hne hblank
  refine ⟨_, BlockTag.firedEvent?_eq_some_iff.mpr ⟨_, hword.symm, hne, rfl⟩, hnone.trans ?_, hloose⟩
  constructor
  · exact fun hmem ↦ ⟨_, hmem, hword.symm⟩
  · rintro ⟨lone, hmem, heq⟩
    rwa [heq, String.ofList_toList]

/-- The tag begins with a word; where more follows, a blank comes first. -/
def BlockTag.BeginsWith (t : BlockTag) (word : String) : Prop :=
  ∃ rest, t.text.toList = word.toList ++ rest ∧ ∀ c ∈ rest.head?, isBlank c = true

/-- The word with which a tag begins is what the check reads. -/
theorem BlockTag.BeginsWith.firedEvent?_eq {t : BlockTag} (h : t.BeginsWith word) (hne : word ≠ "")
    (hblank : ∀ c ∈ word.toList, isBlank c = false) : t.firedEvent? = some (Check.fires.reading word) := by
  obtain ⟨rest, htext, hrest⟩ := h
  refine BlockTag.firedEvent?_eq_some_iff.mpr ⟨word, ?_, hne, rfl⟩
  rw [htext]
  exact firstWord_append (mt String.toList_eq_nil_iff.mp hne) hblank hrest

/-! ## The three ways -/

namespace Reference

/-- The name of an event that can be written in each of the three ways. -/
structure IsEventName (name : String) : Prop where
  /-- There is something to write. -/
  ne_empty : name ≠ ""
  /-- It is one word. -/
  not_blank : ∀ c ∈ name.toList, isBlank c = false
  /-- It does not start like a reference. -/
  bare : ∀ lead ∈ partLeads, ¬lead.toList <+: name.toList

/-- The ways to name an event of a type: bare, as an event, and with the address of the type. -/
def eventForms (path : List String) (type event : String) : List String :=
  [event, "#event:" ++ event, typeAddress path type ++ ("#event:" ++ event)]

/-- An address is one word. -/
theorem isBlank_of_mem_typeAddress {path : List String} {name : String}
    (hpath : ∀ segment ∈ path, IsAddressable segment) (hname : IsAddressable name) :
    ∀ c ∈ (typeAddress path name).toList, isBlank c = false := by
  intro c hc
  rw [toList_typeAddress, List.mem_append, List.mem_append, List.mem_cons] at hc
  rcases hc with (hc | hc) | rfl | hc
  · exact not_blank_of_all (by decide) hc
  · rcases mem_joinWith hc with rfl | ⟨s, hs, hc⟩
    · rfl
    · obtain ⟨segment, hsegment, rfl⟩ := List.mem_map.mp hs
      exact ((hpath segment hsegment).plain c hc).2.2.2.2
  · rfl
  · exact (hname.plain c hc).2.2.2.2

/-- A word asks whether a class has an event: it is one word, and what the check reads there is a reference to an
event that names, from a declaration, the event of the class. -/
structure AsksFor (ix : Index) (m : Model) (owner type : Handle) (event word : String) (r : Reference) : Prop where
  ne_empty : word ≠ ""
  not_blank : ∀ c ∈ word.toList, isBlank c = false
  read : parse? (Check.fires.reading word) = some r
  raw : r.raw = Check.fires.reading word
  marker : r.marker = .event
  resolves : ix.resolve? m r owner = ix.event? type event

section

variable {ix : Index} {m : Model} {owner type : Handle} {event : String}

private theorem toList_marked (event : String) :
    ("#event:" ++ event).toList = "#event:".toList ++ event.toList := String.toList_append

private theorem isBlank_of_mem_marked (h : ∀ c ∈ event.toList, isBlank c = false) :
    ∀ c ∈ ("#event:" ++ event).toList, isBlank c = false := by
  intro c hc
  rw [toList_marked] at hc
  exact (List.mem_append.mp hc).elim (not_blank_of_all (by decide)) (h c)

/-- The bare name asks for the event of the class around the declaration. -/
theorem asksFor_bare (hcontainer : m.containerOf? owner = some type) (hevent : IsEventName event) :
    AsksFor ix m owner type event event (ofEvent event) := by
  have hnone : ¬∃ lead ∈ partLeads, lead.toList <+: event.toList := by
    rintro ⟨lead, hlead, hstarts⟩
    exact hevent.bare lead hlead hstarts
  have hreading := Check.reading_of_bare hnone
  refine ⟨hevent.ne_empty, hevent.not_blank, ?_, hreading.symm, rfl, ?_⟩
  · rw [hreading, parse?_event hevent.not_blank]
  · rw [resolve?_ofEvent, hcontainer, Option.bind_some]

/-- So does the name after the lead of events. -/
theorem asksFor_marked (hcontainer : m.containerOf? owner = some type) (hevent : IsEventName event) :
    AsksFor ix m owner type event ("#event:" ++ event) (ofEvent event) := by
  have hlead : "#".toList <+: ("#event:" ++ event).toList := by
    rw [toList_marked]
    exact ⟨"event:".toList ++ event.toList, rfl⟩
  have hreading := Check.reading_of_lead ⟨"#", by decide, hlead⟩
  refine ⟨fun hnil ↦ ?_, isBlank_of_mem_marked hevent.not_blank, ?_, hreading.symm, rfl, ?_⟩
  · exact absurd (String.append_eq_empty_iff.mp hnil).1 (by decide)
  · rw [hreading, parse?_event hevent.not_blank]
  · rw [resolve?_ofEvent, hcontainer, Option.bind_some]

/-- The whole address asks for the event of the class that it leads to, from wherever. -/
theorem exists_asksFor_address {path : List String} {name : String}
    (hexport : ix.export? path (some name) = some type)
    (hpath : ∀ segment ∈ path, IsAddressable segment) (hname : IsAddressable name)
    (hevent : IsEventName event) :
    ∃ r, AsksFor ix m owner type event (typeAddress path name ++ ("#event:" ++ event)) r := by
  have hlead : "module:".toList <+: (typeAddress path name ++ ("#event:" ++ event)).toList := by
    rw [String.toList_append, toList_typeAddress, List.append_assoc, List.append_assoc]
    exact List.prefix_append _ _
  have hblank : ∀ c ∈ (typeAddress path name ++ ("#event:" ++ event)).toList, isBlank c = false := by
    intro c hc
    rw [String.toList_append] at hc
    exact (List.mem_append.mp hc).elim (isBlank_of_mem_typeAddress hpath hname c)
      (isBlank_of_mem_marked hevent.not_blank c)
  have hreading := Check.reading_of_lead ⟨"module:", by decide, hlead⟩
  obtain ⟨raw, hread⟩ := parse?_eventAddress hpath hname hevent.ne_empty
    (trimString_of_forall_not_blank hevent.not_blank)
  refine ⟨_, fun hnil ↦ ?_, hblank, by rw [hreading, hread], ?_, rfl, ?_⟩
  · exact absurd (String.append_eq_empty_iff.mp (String.append_eq_empty_iff.mp hnil).2).1 (by decide)
  · rw [hreading, (raw_of_parse? hread).1, trimString_of_forall_not_blank hblank]
  · have hscope : ix.resolve? m ⟨raw, some path, some name, some event, .event, none⟩ owner
        = (ix.export? path (some name)).bind fun k ↦ ix.event? k event := rfl
    rw [hscope, hexport, Option.bind_some]

end

end Reference

namespace Model

/-- From a declaration, the class around it can be addressed: the module of this path exports the class under its
name, and all of this can be written. -/
structure IsAddressedFrom (m : Model) (owner type : Handle) (path : List String) : Prop where
  walk : owner ∈ m.walk
  container : m.containerOf? owner = some type
  exported : (Index.build m).export? path (some (m.get type).name) = some type
  segments : ∀ segment ∈ path, IsAddressable segment
  name : IsAddressable (m.get type).name

/-- **The three ways come to one question.** -/
theorem IsAddressedFrom.exists_asksFor {m : Model} {owner type : Handle} {path : List String}
    {event form : String} (ha : m.IsAddressedFrom owner type path) (hevent : IsEventName event)
    (hform : form ∈ eventForms path (m.get type).name event) :
    ∃ r, AsksFor (Index.build m) m owner type event form r := by
  rw [eventForms, List.mem_cons, List.mem_cons, List.mem_singleton] at hform
  rcases hform with rfl | rfl | rfl
  · exact ⟨_, asksFor_bare ha.container hevent⟩
  · exact ⟨_, asksFor_marked ha.container hevent⟩
  · exact exists_asksFor_address ha.exported ha.segments ha.name hevent

end Model

namespace Check

variable {m : Model} {ix : Index} {owner type : Handle} {path : List String} {event form : String} {t : BlockTag}

/-- The issues of a tag that asks for an event, where the place of its owner can be told. -/
theorem firesTagTrace_of_event {r : Reference} (hfired : t.firedEvent? = some event)
    (hread : parse? event = some r) (hmarker : r.marker = .event) (hlost : m.isLost owner = false) :
    (firesTagTrace ix m owner t).fault = none ∧
      issues (firesTagTrace ix m owner t)
        = if (ix.resolve? m r owner).isNone then [(eventMessage r.raw, owner)] else [] := by
  refine ⟨fault_firesTagTrace_eq_none_iff.mpr fun _ _ _ _ _ ↦ hlost, ?_⟩
  rw [firesTagTrace, hfired, Option.bind_some, hread]
  dsimp only
  rw [if_pos hmarker, expectTarget, issues_notes_andThen]
  cases ix.resolve? m r owner with
  | none =>
    rw [accuse, hlost]
    rfl
  | some k => rfl

/-- What becomes of a way to name an event: a tag that begins so has no issue if the class knows the event and its
one issue otherwise, and so it is in the reports that the check contributes to. -/
structure DecidesForm (m : Model) (owner : Handle) (form : String) (known : Prop) : Prop where
  /-- The trace of a tag comes to its end. -/
  ends : ∀ t : BlockTag, t.BeginsWith form → (firesTagTrace (Index.build m) m owner t).fault = none
  /-- There is no issue. -/
  quiet : known → ∀ t : BlockTag, t.BeginsWith form → issues (firesTagTrace (Index.build m) m owner t) = []
  /-- There is one issue. -/
  reported : ¬known → ∀ t : BlockTag, t.BeginsWith form →
    issues (firesTagTrace (Index.build m) m owner t) = [(eventMessage (fires.reading form), owner)]
  /-- If a tag in a comment that is looked at begins so then a report has the issue under the same condition. -/
  mem_issues_iff : ∀ plan id duration report, (Pass.run m plan id duration).result = .ok report →
    .str fires.name ∈ plan.validators → ∀ h ∈ m.walk, (m.get h).kind.meets fires.mask = true →
      m.isOwn plan.excluded h = .ok true → ∀ comment, m.Carries h owner comment →
        ∀ t ∈ comment.tagsNamed firesTag, t.BeginsWith form →
          (.forMention fires form owner ∈ report.issues ↔ ¬known)

theorem decidesForm (hm : m.IsTree) (ha : m.IsAddressedFrom owner type path) (hevent : IsEventName event)
    (hform : form ∈ eventForms path (m.get type).name event) :
    DecidesForm m owner form (m.KnowsEvent event type) := by
  obtain ⟨r, hne, hblank, hread, hraw, hmarker, hresolve⟩ := ha.exists_asksFor hevent hform
  have htype : type ∈ m.walk :=
    Index.mem_walk_of_exported? hm ((Index.export?_build m _ _).symm.trans ha.exported)
  have hcontainer : (m.get type).isContainer = true :=
    List.find?_some (p := fun k ↦ (m.get k).isContainer) ha.container
  have hlost := isLost_eq_false hm ha.walk
  have hknown : (Index.build m).resolve? m r owner = none ↔ ¬m.KnowsEvent event type := by
    rw [hresolve, Index.event?_eq_none_iff htype hcontainer]
  have htag : ∀ t : BlockTag, t.BeginsWith form →
      (firesTagTrace (Index.build m) m owner t).fault = none ∧
        issues (firesTagTrace (Index.build m) m owner t)
          = if ((Index.build m).resolve? m r owner).isNone then [(eventMessage r.raw, owner)] else [] :=
    fun t ht ↦ firesTagTrace_of_event (ht.firedEvent?_eq hne hblank) hread hmarker hlost
  refine ⟨fun t ht ↦ (htag t ht).1, fun hknows t ht ↦ ?_, fun hnot t ht ↦ ?_, ?_⟩
  · rw [(htag t ht).2, if_neg]
    exact fun hnone ↦ hknown.mp (Option.isNone_iff_eq_none.mp hnone) hknows
  · rw [(htag t ht).2, if_pos (Option.isNone_iff_eq_none.mpr (hknown.mpr hnot)), hraw]
  · intro plan id duration report hrun hplan h hh hmeets hown comment hcarries t ht hbegins
    rw [← hknown]
    constructor
    · intro hi
      obtain ⟨c, -, h', -, -, -, f, hf, heq⟩ := (Pass.mem_issues_iff hrun).mp hi
      obtain ⟨hname, hmessage, howner⟩ := Issue.mk.inj heq
      cases Pass.Check.name_injective (Value.str.inj hname)
      have hfires : fires ≠ overloads := by decide
      obtain ⟨_, text, r', -, -, hmessage', hread', -, hnone⟩ :=
        (accuses_of_mem_issues_test hf).1.exists_mention hfires
      -- another mention that is read in the same way has the same reference
      have hreading := message_injective hfires ((Value.str.inj hmessage).trans hmessage')
      rw [← hreading, hread] at hread'
      cases hread'
      rw [howner]
      exact hnone hmarker
    · intro hnone
      have hissue := mem_issues_fires (Pass.fault_test_eq_none hrun hplan hh hmeets hown) hcarries ht
        (hbegins.firedEvent?_eq hne hblank) hread hnone
      refine (Pass.mem_issues_iff hrun).mpr ⟨fires, hplan, h, hh, hmeets, hown, _, hissue, ?_⟩
      rw [Issue.forMention, hraw]
      rfl

/-- **The ways to name an event are interchangeable.** What a tag that is not blank asks for is within the grammar
of references, for every tag. And where the class around a declaration can be addressed, the name of an event, the
name after `#event:` and the whole address are all reported or none of them, whether or not a description follows:
they are reported exactly if neither the class nor what it descends from declares an event of the name. -/
theorem fires_forms_agree :
    (∀ t : BlockTag, (∃ c ∈ t.text.toList, isBlank c = false) → ∃ event, t.FiresReference event) ∧
    ∀ (m : Model) (owner type : Handle) (path : List String) (event : String), m.IsTree →
      m.IsAddressedFrom owner type path → IsEventName event →
        ∀ form ∈ eventForms path (m.get type).name event,
          DecidesForm m owner form (m.KnowsEvent event type) :=
  ⟨fun _ ht ↦ BlockTag.exists_firesReference ht, fun _ _ _ _ _ hm ha hevent _ hform ↦
    decidesForm hm ha hevent hform⟩

/-- A tag that names an event in this way, with a description. -/
def firing (form : String) : BlockTag := ⟨.str firesTag, [⟨.text, form ++ " when it is done", .null⟩]⟩

/-- The tags that name, in each way, an event which the class `C` inherits, and one that nobody declares. -/
def firingAll : Comment where
  summary := []
  blockTags := (eventForms ["m"] "C" "e" ++ eventForms ["m"] "C" "a:b#c").map firing

/-- A class whose method has a signature with these tags, and whose base declares the event `e`. -/
def emitter : Model where
  name := "p"
  roots := [0]
  reflections := #[
    { Reflection.free 1 "m" .module none [] false with children := [1, 3] },
    { Reflection.free 2 "B" .interface none [] false with children := [2], parent := some 0 },
    { Reflection.free 3 "e" .event none [] false with parent := some 1 },
    { Reflection.free 4 "C" .classKind none [] false with
      bases := [1], children := [4], parent := some 0 },
    { Reflection.free 5 "run" .method none [⟨"a.ts", 1, .null⟩] false with
      signatures := [5], parent := some 3 },
    { Reflection.free 6 "run" .callSignature (some firingAll) [] false with parent := some 4 }]

theorem isAddressedFrom_emitter : emitter.IsAddressedFrom 5 3 ["m"] := by
  have haddressable : ∀ name ∈ ["m", "C"], IsAddressable name := by
    intro name hname
    rw [List.mem_cons, List.mem_singleton] at hname
    rcases hname with rfl | rfl
    all_goals exact ⟨by decide, fun c hc ↦ by rw [List.mem_singleton.mp hc]; decide⟩
  refine ⟨by decide +kernel, by decide +kernel, ?_, fun segment hsegment ↦ ?_, haddressable "C" (by decide)⟩
  · rw [Index.export?_build]
    decide +kernel
  · exact haddressable segment (List.mem_cons.mpr (.inl (List.mem_singleton.mp hsegment)))

theorem exists_report_emitter : emitter.IsTree ∧
    ∃ report, (Pass.run emitter .standard "" Report.empty.duration).result = .ok report := by
  have hm : emitter.IsTree :=
    ⟨by decide +kernel, by decide +kernel, by decide +kernel, by decide +kernel⟩
  have hcommented : ∀ h ∈ emitter.walk, (emitter.get h).comment.isSome = true → h = 5 := by decide +kernel
  have hlocated : ∀ h ∈ emitter.walk, (emitter.get h).sources.isEmpty = false → h = 4 := by decide +kernel
  have hl : emitter.Legible := by
    constructor
    · intro h hh c hc p hp
      cases hcommented h hh (by rw [hc]; rfl)
      cases hc
      obtain ⟨t, ht, hp⟩ := List.mem_flatMap.mp hp
      obtain ⟨form, -, rfl⟩ := List.mem_map.mp ht
      rw [List.mem_singleton.mp hp]
      exact .inl rfl
    · intro h hh s hs
      cases hlocated h hh (List.isEmpty_eq_false_iff.mpr (List.ne_nil_of_mem hs))
      rw [List.mem_singleton.mp hs]
      exact .inl rfl
  have hplan : Plan.standard.validators = Check.all.map fun c ↦ .str c.name := rfl
  obtain ⟨report, hrun, -⟩ := Pass.exists_run hm hl hplan rfl "" Report.empty.duration
  exact ⟨hm, report, hrun⟩

/-- The event that the class inherits is known in each way, and the other one is reported in each. -/
theorem fires_forms_emitter : ∃ report,
    (Pass.run emitter .standard "" Report.empty.duration).result = .ok report ∧
      (∃ event, (firing "e").FiresReference event) ∧
      (∀ form ∈ eventForms ["m"] "C" "e",
        issues (firesTagTrace (Index.build emitter) emitter 5 (firing form)) = [] ∧
          .forMention fires form 5 ∉ report.issues) ∧
      ∀ form ∈ eventForms ["m"] "C" "a:b#c",
        issues (firesTagTrace (Index.build emitter) emitter 5 (firing form))
            = [(eventMessage (fires.reading form), 5)] ∧
          .forMention fires form 5 ∈ report.issues := by
  obtain ⟨hm, report, hrun⟩ := exists_report_emitter
  obtain ⟨hgrammar, hforms⟩ := fires_forms_agree
  have he : IsEventName "e" := ⟨by decide, fun _ ↦ not_blank_of_all (by decide), by decide⟩
  have hother : IsEventName "a:b#c" := ⟨by decide, fun _ ↦ not_blank_of_all (by decide), by decide⟩
  have hknown : emitter.KnowsEvent "e" 3 := by
    refine ⟨1, 1, .up .here List.mem_cons_self (by decide), by decide +kernel, rfl, 2, ?_, rfl, rfl⟩
    exact List.mem_cons_self
  have hunknown : ¬emitter.KnowsEvent "a:b#c" 3 := by
    have hnames : ∀ a ∈ emitter.walk, ∀ e ∈ (emitter.get a).children, (emitter.get e).name ≠ "a:b#c" := by
      decide +kernel
    rintro ⟨n, a, -, ha, -, e, he, -, hname⟩
    exact hnames a ha e he hname
  have hbegins : ∀ form ∈ eventForms ["m"] "C" "e" ++ eventForms ["m"] "C" "a:b#c",
      (firing form).BeginsWith form := by
    have htext : ∀ form ∈ eventForms ["m"] "C" "e" ++ eventForms ["m"] "C" "a:b#c",
        (firing form).text.toList = form.toList ++ " when it is done".toList := by decide +kernel
    exact fun form hform ↦ ⟨_, htext form hform, fun c hc ↦ by cases hc; rfl⟩
  have hplan : .str fires.name ∈ Plan.standard.validators :=
    List.mem_map_of_mem (f := Value.str) (by decide : fires.name ∈ names)
  have hcarries : emitter.Carries 4 5 firingAll := ⟨.inr List.mem_cons_self, rfl⟩
  have htags : ∀ form ∈ eventForms ["m"] "C" "e" ++ eventForms ["m"] "C" "a:b#c",
      firing form ∈ firingAll.tagsNamed firesTag := by
    intro form hform
    have hnamed : (Value.str firesTag).isText (Comment.tagName firesTag) = true := by decide +kernel
    exact List.mem_filter.mpr ⟨List.mem_map_of_mem hform, hnamed⟩
  have hmem := fun form hform known (hdecides : DecidesForm emitter 5 form known) ↦
    hdecides.mem_issues_iff .standard "" _ report hrun hplan 4 (by decide +kernel) (by decide +kernel) rfl
      firingAll hcarries (firing form) (htags form hform) (hbegins form hform)
  refine ⟨report, hrun, hgrammar _ ⟨'e', by decide +kernel, rfl⟩, fun form hform ↦ ?_, fun form hform ↦ ?_⟩
  · have hall := List.mem_append_left (eventForms ["m"] "C" "a:b#c") hform
    have hdecides := hforms emitter 5 3 ["m"] "e" hm isAddressedFrom_emitter he form hform
    exact ⟨hdecides.quiet hknown _ (hbegins form hall), mt (hmem form hall _ hdecides).mp (not_not.mpr hknown)⟩
  · have hall := List.mem_append_right (eventForms ["m"] "C" "e") hform
    have hdecides := hforms emitter 5 3 ["m"] "a:b#c" hm isAddressedFrom_emitter hother form hform
    exact ⟨hdecides.reported hunknown _ (hbegins form hall), (hmem form hall _ hdecides).mpr hunknown⟩

end Check

end RefCheck
