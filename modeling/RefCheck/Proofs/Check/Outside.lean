import RefCheck.Proofs.Check.Accused
import RefCheck.Proofs.Check.Verdict
import RefCheck.Proofs.Reference.Written

/-!
# Mentions that lead out of the model

A single character is a list marker, and an address of the web lies outside the model, so neither is a
reference. What a link or a `@see` tag mentions is read as it stands, and so no issue is for such a mention. The
word of a `@fires` tag is first made a reference to an event, unless it starts like a reference, and only then
asked whether it is one. By then it always is: `http://x` has become `#event:http://x`, which is reported unless
the class has an event of that name.

`forMention_mem_issues_iff` says both. It speaks of the issue for a mention, and that this is what issues are is
the first half of it.
-/

namespace RefCheck

open RefCheck.Text RefCheck.Reference

variable {m : Model} {ix : Index} {h : Handle} {c : Check} {comment : Comment} {text : String}

/-! ## Texts that lead out -/

/-- The text is a single character, or it starts as an address of the web. -/
def LeadsOut (text : String) : Prop :=
  text.length = 1 ∨ ∃ lead ∈ ["http://", "https://"], lead.toList <+: text.toList

theorem LeadsOut.isTrimmedReference_eq_false (hout : LeadsOut text) :
    isTrimmedReference text.toList = false := by
  rw [isTrimmedReference, Bool.and_eq_false_iff, Bool.not_eq_false', List.any_eq_true]
  rcases hout with hone | ⟨lead, hlead, hstarts⟩
  · left
    rw [String.length_toList, hone]
    rfl
  · right
    have hmem : lead.toList ∈ externalLeads := List.mem_map_of_mem (f := String.toList) hlead
    exact ⟨lead.toList, hmem, startsWith_eq_true_iff.mpr hstarts⟩

/-- Single characters with which a reference may start. -/
def loneLeads : List String := ["~", "#", "."]

/-- Of what leads out, a `@fires` tag takes all but three characters for the names of events. -/
theorem LeadsOut.eventReference_eq (hout : LeadsOut text) :
    eventReference text.toList
      = if text ∈ loneLeads then text.toList else ("#event:" ++ text).toList := by
  have hleads : (referenceLeads.any fun lead ↦ startsWith lead text.toList) = true ↔
      text ∈ loneLeads := by
    simp only [List.any_eq_true, startsWith_eq_true_iff]
    constructor
    · rintro ⟨lead, hlead, hstarts⟩
      rcases hout with hone | ⟨web, hweb, hwebStarts⟩
      · -- a lead within a single character is that character
        have hshort : ∀ lead ∈ referenceLeads, lead.length ≤ 1 →
            String.ofList lead ∈ loneLeads ∧ lead.length = 1 := by decide
        have hlength := hstarts.length_le
        rw [String.length_toList, hone] at hlength
        obtain ⟨hlone, hlong⟩ := hshort lead hlead hlength
        rw [hstarts.eq_of_length (by rw [hlong, String.length_toList, hone]),
          String.ofList_toList] at hlone
        exact hlone
      · have hapart : ∀ lead ∈ referenceLeads, ∀ web ∈ ["http://", "https://"],
            ¬(lead <+: web.toList ∨ web.toList <+: lead) := by decide
        exact absurd (List.prefix_or_prefix_of_prefix hstarts hwebStarts) (hapart lead hlead web hweb)
    · intro hlone
      have hlong : ∀ lone ∈ loneLeads, lone.toList ∈ referenceLeads := by decide
      exact ⟨text.toList, hlong text hlone, List.prefix_rfl⟩
  rw [eventReference]
  simp only [hleads]
  rw [String.toList_append]
  rfl

namespace Reference

/-- What is read is the text without the blanks around it. -/
theorem raw_of_parse? {r : Reference} (hread : parse? text = some r) :
    r.raw = trimString text ∧ isTrimmedReference r.raw.toList = true ∧
      r = ofTrimmed r.raw.toList := by
  have hchars : ofChars? text.toList = some r := hread
  rw [ofChars?] at hchars
  split at hchars
  · next href =>
    cases hchars
    have hraw : (ofTrimmed (trim text.toList)).raw.toList = trim text.toList := String.toList_ofList
    rw [hraw]
    exact ⟨rfl, href, rfl⟩
  · cases hchars

/-- The event that a bare name addresses. -/
def ofEvent (name : String) : Reference :=
  ⟨"#event:" ++ name, none, none, some name, .event, none⟩

theorem ofTrimmed_event (name : String) : ofTrimmed ("#event:" ++ name).toList = ofEvent name := by
  have hread : ofTrimmed (eventLead ++ name.toList) = ofParts (eventLead ++ name.toList) none none
      (readMember (eventLead ++ name.toList)) := rfl
  have hchars : ("#event:" ++ name).toList = eventLead ++ name.toList := String.toList_append
  rw [hchars, hread, readMember_event, ← hchars, ofParts]
  simp only [Option.map_some, Option.map_none, String.ofList_toList]
  rfl

theorem parse?_event {name : String} (hname : ∀ c ∈ name.toList, isBlank c = false) :
    parse? ("#event:" ++ name) = some (ofEvent name) := by
  have hchars : ("#event:" ++ name).toList = eventLead ++ name.toList := String.toList_append
  have hblank : ∀ c ∈ ("#event:" ++ name).toList, isBlank c = false := by
    intro c hc
    rw [hchars] at hc
    exact (List.mem_append.mp hc).elim (not_blank_of_all (by decide)) (hname c)
  rw [parse?, ofChars?, trim_of_forall_not_blank hblank, ofTrimmed_event, hchars]
  exact if_pos (isTrimmedReference_cons (c := '#') (by decide) (List.cons_ne_nil 'e' _))

theorem resolve?_ofEvent (name : String) (owner : Handle) :
    ix.resolve? m (ofEvent name) owner = (m.containerOf? owner).bind fun k ↦ ix.event? k name :=
  rfl

end Reference

/-! ## What is mentioned -/

/-- A comment has a text that a check looks up. -/
def Comment.Mentions (comment : Comment) (text : String) : Check → Prop
  | .overloads => False
  | .see => ∃ t ∈ comment.tagsNamed seeTag, t.Mentions text
  | .links => ∃ p ∈ comment.parts, p.IsLink ∧ linkTarget p.text = text
  | .fires => ∃ t ∈ comment.tagsNamed firesTag, firstWord t.text.toList = text.toList ∧ text ≠ ""

theorem isBlank_of_mem_firstWord {cs : List Char} {a : Char} (ha : a ∈ firstWord cs) :
    isBlank a = false := by
  have hword := List.mem_takeWhile_imp ha
  rwa [Bool.not_eq_true'] at hword

theorem isBlank_of_mem_eventReference {word : List Char} (hword : ∀ a ∈ word, isBlank a = false) :
    ∀ a ∈ eventReference word, isBlank a = false := by
  rw [eventReference]
  split
  · exact hword
  · intro a ha
    exact (List.mem_append.mp ha).elim (not_blank_of_all (by decide)) (hword a)

theorem trimString_linkTarget (s : String) : trimString (linkTarget s) = linkTarget s := by
  have hnone : ∀ a ∈ linkTargetChars s.toList, isBlank a = false := by
    intro a ha
    have htarget := List.mem_takeWhile_imp ha
    rw [inTarget, Bool.and_eq_true, Bool.not_eq_true'] at htarget
    exact htarget.1
  rw [trimString, linkTarget, String.toList_ofList, trim_of_forall_not_blank hnone]

theorem trim_of_mem_lineTargets {cs line : List Char} (hline : line ∈ lineTargets cs) :
    trim line = line := by
  obtain ⟨written, -, rfl⟩ := List.mem_map.mp (List.mem_of_mem_filter hline)
  have hend := trimEnd_trim written
  unfold dropListMarker
  split
  · next a b rest htrim =>
    split
    · rw [htrim] at hend
      have hsuffix : trimStart rest <:+ a :: b :: rest :=
        (List.dropWhile_suffix isBlank).trans (List.suffix_append [a, b] rest)
      rw [trim, trimStart_trimStart, trimEnd_of_suffix hend hsuffix]
    · rw [← htrim, trim_trim]
  · exact trim_trim written

theorem BlockTag.trimString_of_mentions {t : BlockTag} (hmention : t.Mentions text) :
    trimString text = text := by
  obtain ⟨p, -, hline | hlink⟩ := hmention
  · obtain ⟨-, line, hline, rfl⟩ := hline
    rw [trimString, String.toList_ofList, trim_of_mem_lineTargets hline]
  · obtain ⟨-, rfl⟩ := hlink
    exact trimString_linkTarget p.text

theorem BlockTag.firedEvent?_eq_some_iff {t : BlockTag} {event : String} :
    t.firedEvent? = some event ↔ ∃ word : String, firstWord t.text.toList = word.toList ∧
      word ≠ "" ∧ event = String.ofList (eventReference word.toList) := by
  rw [firedEvent?]
  cases hfirst : firstWord t.text.toList with
  | nil =>
    refine iff_of_false (Option.some_ne_none event).symm ?_
    rintro ⟨word, hword, hne, -⟩
    exact hne (String.toList_eq_nil_iff.mp hword.symm)
  | cons a rest =>
    rw [Option.some.injEq]
    constructor
    · intro hevent
      have hword : (String.ofList (a :: rest)).toList = a :: rest := String.toList_ofList
      refine ⟨String.ofList (a :: rest), hword.symm, ?_, by rw [hword, hevent]⟩
      intro hempty
      cases hword.symm.trans (String.toList_eq_nil_iff.mpr hempty)
    · rintro ⟨word, hword, -, hevent⟩
      rw [hword, hevent]

/-- A mention as a check reads it. -/
def Check.reading (c : Check) (text : String) : String :=
  if c = fires then String.ofList (eventReference text.toList) else text

/-- The message of a check for a text that it has read. -/
def Check.message : Check → String → String
  | overloads => fun _ ↦ missingLabel
  | see => seeMessage
  | links => linkMessage
  | fires => eventMessage

theorem Check.message_injective (hc : c ≠ .overloads) : Function.Injective c.message := by
  have hquoted : ∀ before after : String,
      Function.Injective fun raw : String ↦ before ++ raw ++ after := by
    intro before after raw raw' heq
    have hchars := congrArg String.toList heq
    simp only [String.toList_append] at hchars
    exact String.toList_inj.mp (List.append_cancel_left (List.append_cancel_right hchars))
  cases c with
  | overloads => exact absurd rfl hc
  | see => exact hquoted _ _
  | links => exact hquoted _ _
  | fires => exact hquoted _ _

/-- Of texts that lead out, none is read as a reference but the name of an event. -/
theorem LeadsOut.eq_ofEvent (hout : LeadsOut text) {read : String} {r : Reference}
    (hread : parse? read = some r) (hraw : r.raw = c.reading text) :
    c = .fires ∧ text ∉ loneLeads ∧ r = ofEvent text := by
  obtain ⟨-, href, hr⟩ := raw_of_parse? hread
  have hnot : r.raw ≠ text := by
    rintro rfl
    rw [hout.isTrimmedReference_eq_false] at href
    cases href
  by_cases hc : c = .fires
  · rw [Check.reading, if_pos hc, hout.eventReference_eq] at hraw
    split at hraw
    · exact absurd (hraw.trans String.ofList_toList) hnot
    · next hlone =>
      rw [String.ofList_toList] at hraw
      exact ⟨hc, hlone, by rw [hr, hraw, ofTrimmed_event]⟩
  · rw [Check.reading, if_neg hc] at hraw
    exact absurd hraw hnot

/-- The issue that a check has for a mention in the comment of a declaration. -/
def Issue.forMention (c : Check) (text : String) (owner : Handle) : Issue :=
  .found c.name (c.message (c.reading text)) owner

namespace Check

/-- **An issue is for a mention** in the comment of the accused, which the check reads as a reference. -/
theorem Accuses.exists_mention {i : String × Handle} (hc : c ≠ overloads)
    (hi : c.Accuses ix m h i) :
    ∃ comment text r, m.Carries h i.2 comment ∧ comment.Mentions text c ∧
      i.1 = c.message (c.reading text) ∧ parse? (c.reading text) = some r ∧
      r.raw = c.reading text ∧ (r.marker = .event → ix.resolve? m r i.2 = none) := by
  cases c with
  | overloads => exact absurd rfl hc
  | see =>
    obtain ⟨comment, hcarries, t, ht, text, hmention, r, hread, hnone, hmessage⟩ := hi
    have hraw : r.raw = text :=
      (raw_of_parse? hread).1.trans (BlockTag.trimString_of_mentions hmention)
    exact ⟨comment, text, r, hcarries, ⟨t, ht, hmention⟩, hraw ▸ hmessage, hread, hraw,
      fun _ ↦ hnone⟩
  | links =>
    obtain ⟨hself, comment, hcomment, p, hp, hlink, r, hread, hnone, hmessage⟩ := hi
    have hraw : r.raw = linkTarget p.text :=
      (raw_of_parse? hread).1.trans (trimString_linkTarget p.text)
    exact ⟨comment, linkTarget p.text, r, ⟨.inl hself, hself ▸ hcomment⟩, ⟨p, hp, hlink, rfl⟩,
      hraw ▸ hmessage, hread, hraw, fun _ ↦ hnone⟩
  | fires =>
    obtain ⟨comment, hcarries, t, ht, event, r, hfired, hread, hnone, hmessage⟩ := hi
    obtain ⟨word, hword, hne, rfl⟩ := BlockTag.firedEvent?_eq_some_iff.mp hfired
    have hblank : ∀ a ∈ word.toList, isBlank a = false :=
      fun a ha ↦ isBlank_of_mem_firstWord (hword ▸ ha)
    have hraw : r.raw = fires.reading word := by
      rw [(raw_of_parse? hread).1, trimString, String.toList_ofList,
        trim_of_forall_not_blank (isBlank_of_mem_eventReference hblank)]
      rfl
    exact ⟨comment, word, r, hcarries, ⟨t, ht, hword, hne⟩, hraw ▸ hmessage, hread, hraw, hnone⟩

/-- A `@fires` tag has its issue, if nothing stops the test. -/
theorem mem_issues_fires {owner : Handle} {t : BlockTag} {event : String} {r : Reference}
    (hfault : (fires.test ix m h).fault = none) (hcarries : m.Carries h owner comment)
    (ht : t ∈ comment.tagsNamed firesTag) (hfired : t.firedEvent? = some event)
    (hread : parse? event = some r) (hnone : ix.resolve? m r owner = none) :
    (eventMessage r.raw, owner) ∈ issues (fires.test ix m h) := by
  have howned := mem_ownedComments.mpr hcarries
  have htags := Trace.fault_forEach_eq_none_iff.mp hfault (owner, comment) howned
  have htag := Trace.fault_forEach_eq_none_iff.mp htags t ht
  have hlost := fault_firesTagTrace_eq_none_iff.mp htag event hfired r hread fun _ ↦ hnone
  refine mem_issues_forEach_of_fault_eq_none hfault howned
    (mem_issues_forEach_of_fault_eq_none htags ht ?_)
  exact mem_issues_firesTagTrace.mpr ⟨event, r, hfired, hread, fun _ ↦ hnone, hlost, rfl⟩

end Check

namespace Pass

variable {plan : Plan} {id : String} {duration : Binary64} {report : Report}

/-- **What is reported of what leads out.** Every issue is for a mention in the comment of the declaration that it
is about, but for those of missing labels. There is none for a mention that leads out of the model, but where a
`@fires` tag that is looked at names an event by it which the class does not have. -/
theorem forMention_mem_issues_iff (hrun : (run m plan id duration).result = .ok report) :
    (∀ i ∈ report.issues, ∃ c, i.validator = .str c.name ∧ (c ≠ .overloads →
      ∃ comment text, (m.get i.reflection).comment = some comment ∧ comment.Mentions text c ∧
        i = .forMention c text i.reflection)) ∧
    ∀ c owner comment text, (m.get owner).comment = some comment → comment.Mentions text c →
      LeadsOut text →
        (.forMention c text owner ∈ report.issues ↔
          c = .fires ∧ .str Check.fires.name ∈ plan.validators ∧
          (∃ h ∈ m.walk, (m.get h).kind.meets Check.fires.mask = true ∧
            m.isOwn plan.excluded h = .ok true ∧ m.Carries h owner comment) ∧
          text ∉ loneLeads ∧
          ((m.containerOf? owner).bind fun k ↦ (Index.build m).event? k text) = none) := by
  refine ⟨fun i hi ↦ ?_, fun c owner comment text hcomment hmention hout ↦ ?_⟩
  · obtain ⟨c, -, h, hh, -, -, f, hf, rfl⟩ := (mem_issues_iff hrun).mp hi
    refine ⟨c, rfl, fun hc ↦ ?_⟩
    obtain ⟨comment, text, r, hcarries, hmention, hmessage, -⟩ :=
      (Check.accuses_of_mem_issues_test hf).1.exists_mention hc
    exact ⟨comment, text, hcarries.2, hmention, by rw [Issue.forMention, ← hmessage]; rfl⟩
  · have hsome : c ≠ .overloads := by
      rintro rfl
      exact hmention
    constructor
    · intro hi
      obtain ⟨d, hd, h, hh, hmeets, hown, f, hf, heq⟩ := (mem_issues_iff hrun).mp hi
      obtain ⟨hname, hmessage, howner⟩ := Issue.mk.inj heq
      cases Check.name_injective (Value.str.inj hname)
      obtain ⟨comment', text', r, hcarries, -, hmessage', hread, hraw, hnone⟩ :=
        (Check.accuses_of_mem_issues_test hf).1.exists_mention hsome
      rw [← howner] at hcarries hnone
      cases hcomment.symm.trans hcarries.2
      have hreading : c.reading text = c.reading text' :=
        Check.message_injective hsome ((Value.str.inj hmessage).trans hmessage')
      obtain ⟨rfl, hlone, rfl⟩ := hout.eq_ofEvent hread (hraw.trans hreading.symm)
      exact ⟨rfl, hd, ⟨h, hh, hmeets, hown, hcarries⟩, hlone, hnone rfl⟩
    · rintro ⟨rfl, hd, ⟨h, hh, hmeets, hown, hcarries⟩, hlone, hnone⟩
      obtain ⟨t, ht, hword, hne⟩ := hmention
      have hblank : ∀ a ∈ text.toList, isBlank a = false :=
        fun a ha ↦ isBlank_of_mem_firstWord (hword ▸ ha)
      have hreading : Check.fires.reading text = "#event:" ++ text := by
        rw [Check.reading, if_pos rfl, hout.eventReference_eq, if_neg hlone, String.ofList_toList]
      have hfired : t.firedEvent? = some ("#event:" ++ text) :=
        BlockTag.firedEvent?_eq_some_iff.mpr ⟨text, hword, hne, hreading.symm⟩
      refine (mem_issues_iff hrun).mpr ⟨.fires, hd, h, hh, hmeets, hown,
        (Check.eventMessage (ofEvent text).raw, owner), ?_, by rw [Issue.forMention, hreading]; rfl⟩
      exact Check.mem_issues_fires (fault_test_eq_none hrun hd hh hmeets hown) hcarries ht hfired
        (parse?_event hblank) hnone

/-- A comment that mentions single characters and addresses of the web. -/
def pointingOut : Comment where
  summary := [⟨.inlineTag, "http://x/docs", .str "@link"⟩]
  blockTags := [⟨.str seeTag, [⟨.text, "- https://x\n- a", .null⟩]⟩,
    ⟨.str firesTag, [⟨.text, "#", .null⟩]⟩, ⟨.str firesTag, [⟨.text, "http://x/docs", .null⟩]⟩]

/-- A class with this comment. -/
def outward : Model where
  name := "p"
  roots := [0]
  reflections :=
    #[Reflection.free 1 "C" .classKind (some pointingOut) [⟨"a.ts", 1, .null⟩] false]

theorem exists_report_outward :
    ∃ report, (run outward .standard "" Report.empty.duration).result = .ok report := by
  have hm : outward.IsTree := ⟨by decide, by decide, by decide, by decide⟩
  have hwalk : ∀ h ∈ outward.walk, h = 0 := fun h hh ↦ List.mem_singleton.mp hh
  have hparts : ∀ p ∈ pointingOut.parts, p.tag.IsTextOrNull := by
    simp [pointingOut, Comment.parts, Value.IsTextOrNull]
  have hl : outward.Legible := by
    constructor
    · intro h hh c hc p hp
      rw [hwalk h hh] at hc
      cases hc
      exact hparts p hp
    · intro h hh s hs
      rw [hwalk h hh] at hs
      rw [List.mem_singleton.mp hs]
      exact .inl rfl
  have hplan : Plan.standard.validators = Check.all.map fun c ↦ .str c.name := rfl
  obtain ⟨report, hrun, -⟩ := exists_run hm hl hplan rfl "" Report.empty.duration
  exact ⟨report, hrun⟩

/-- No issue is for what the link and the `@see` tag mention, nor for a mark alone. -/
theorem forMention_not_mem_issues_outward : ∃ report,
    (run outward .standard "" Report.empty.duration).result = .ok report ∧
      .forMention .links "http://x/docs" 0 ∉ report.issues ∧
      .forMention .see "https://x" 0 ∉ report.issues ∧ .forMention .see "a" 0 ∉ report.issues ∧
      .forMention .fires "#" 0 ∉ report.issues := by
  obtain ⟨report, hrun⟩ := exists_report_outward
  have hnot := fun c text hmention hout ↦
    mt ((forMention_mem_issues_iff hrun).2 c 0 pointingOut text rfl hmention hout).mp
  have hlink : pointingOut.Mentions "http://x/docs" .links :=
    ⟨_, List.mem_cons_self, ⟨rfl, "@link", by decide, rfl⟩, by decide⟩
  have hsee : ∀ line ∈ lineTargets "- https://x\n- a".toList,
      pointingOut.Mentions (String.ofList line) .see := fun line hline ↦
    ⟨_, List.mem_filter.mpr ⟨List.mem_cons_self, by decide +kernel⟩, _, List.mem_cons_self,
      .inl ⟨rfl, line, hline, rfl⟩⟩
  have hfires : pointingOut.Mentions "#" .fires :=
    ⟨_, List.mem_filter.mpr ⟨List.mem_cons_of_mem _ List.mem_cons_self, by decide +kernel⟩,
      by decide +kernel, by decide⟩
  have hhttp : LeadsOut "http://x/docs" := .inr ⟨"http://", by decide, by decide⟩
  have hhttps : LeadsOut "https://x" := .inr ⟨"https://", by decide, by decide⟩
  refine ⟨report, hrun, hnot .links _ hlink hhttp ?_, hnot .see _ (hsee _ (by decide)) hhttps ?_,
    hnot .see _ (hsee _ (by decide)) (.inl rfl) ?_, hnot .fires _ hfires (.inl rfl) ?_⟩
  · rintro ⟨hc, -⟩
    cases hc
  · rintro ⟨hc, -⟩
    cases hc
  · rintro ⟨hc, -⟩
    cases hc
  · rintro ⟨-, -, -, hlone, -⟩
    exact hlone (by decide)

/-- **A finding about the web.** A `@fires` tag that mentions an address of the web is reported. -/
theorem forMention_mem_issues_outward : ∃ report,
    (run outward .standard "" Report.empty.duration).result = .ok report ∧
      pointingOut.Mentions "http://x/docs" .fires ∧ LeadsOut "http://x/docs" ∧
      .found "fires" "Event \"#event:http://x/docs\" is not found" 0 ∈ report.issues := by
  obtain ⟨report, hrun⟩ := exists_report_outward
  have hfires : .str Check.fires.name ∈ Plan.standard.validators :=
    List.mem_map_of_mem (f := Value.str) (by decide : Check.fires.name ∈ Check.names)
  have htag : pointingOut.blockTags[2] ∈ pointingOut.tagsNamed firesTag :=
    List.mem_filter.mpr ⟨List.getElem_mem _, by decide +kernel⟩
  have hblank : ∀ a ∈ "http://x/docs".toList, isBlank a = false :=
    fun _ ↦ not_blank_of_all (by decide)
  have hnone : (Index.build outward).resolve? outward (ofEvent "http://x/docs") 0 = none := by
    have hcontainer : outward.containerOf? 0 = some 0 := by decide
    rw [resolve?_ofEvent, hcontainer, Option.bind_some, Index.event?_build (by decide)]
    decide
  have hissue := Check.mem_issues_fires (fault_test_eq_none hrun hfires (h := 0) (by decide)
    (by decide) rfl) ⟨.inl rfl, rfl⟩ htag (by decide +kernel) (parse?_event hblank) hnone
  refine ⟨report, hrun, ⟨_, htag, by decide +kernel, by decide⟩,
    .inr ⟨"http://", by decide, by decide⟩, ?_⟩
  exact (mem_issues_iff hrun).mpr ⟨.fires, hfires, 0, by decide, by decide, rfl, _, hissue, rfl⟩

end Pass

end RefCheck
