import RefCheck.Proofs.Reference.Spelling

/-!
# References that are rendered

Of the texts that spell a reference, `render` writes the plainest: segments with one slash between them, and a
colon only where a label follows. Whether a reference can be written at all is a matter of its fields alone:
`IsRegular` says which of them keep the parts apart. The text of a regular reference spells it
(`isSpelled_render`), so reading the text gives the reference back.

`grammar_exact` puts this together with what reading makes of all other texts: those that are no references, and
the loose ones, which start in none of the ways in which a part does.
-/

namespace RefCheck.Reference

open RefCheck.Text

/-! ## Rendering -/

/-- The text of the module, with its lead. -/
def renderModule (r : Reference) : String :=
  r.modulePath.elim "" fun path ↦ "module:" ++ "/".intercalate path

/-- The text of the type, with its tilde. -/
def renderType (r : Reference) : String := r.typeName.elim "" ("~" ++ ·)

/-- The text of the label, with its colon. -/
def renderLabel (r : Reference) : String := r.label.elim "" (":" ++ ·)

/-- The text of the member, with its marker and its label. -/
def renderMember (r : Reference) : String := r.marker.text ++ r.memberName.getD "" ++ r.renderLabel

/-- The text that writes a reference down. -/
def render (r : Reference) : String := r.renderModule ++ r.renderType ++ r.renderMember

/-- The parts of a reference can be told from one another once they are written in a row. -/
structure IsRegular (r : Reference) : Prop where
  /-- The segments of the module can be told apart. -/
  path : ∀ path ∈ r.modulePath, IsWritable path
  /-- The type ends where a member starts. -/
  type : ∀ type ∈ r.typeName, ∀ c ∈ type.toList, c ≠ '#' ∧ c ≠ '.'
  /-- A name stands behind a marker, and nowhere else. -/
  named : r.memberName = none ↔ r.marker = .none
  /-- The name ends where a label starts, unless it is the name of an event. -/
  plain : r.marker ≠ .event → ∀ name ∈ r.memberName, ':' ∉ name.toList
  /-- A label is not empty, and stands behind the name of a member that does not read as an event. -/
  labelled : ∀ label ∈ r.label, label ≠ "" ∧
    (r.marker = .static ∨ r.marker = .inst ∧ r.memberName ≠ some "event")
  /-- The dot of a static member is not read as part of the module. -/
  apart : r.marker = .static → r.modulePath.isSome = true → r.typeName.isSome = true

/-! ## Rendering spells -/

theorem spellsModule_render {r : Reference} (h : r.IsRegular) :
    SpellsModule r.modulePath r.renderModule.toList := by
  rw [renderModule]
  cases hpath : r.modulePath with
  | none => exact .missing
  | some path =>
    have hwritable := h.path path hpath
    have htext : ("module:" ++ "/".intercalate path).toList
        = "module:".toList ++ joinWith '/' (path.map String.toList) := by
      have hslash : "/".toList = ['/'] := rfl
      rw [String.toList_append, String.toList_intercalate, hslash, intercalate_eq_joinWith]
    have hspells := SpellsModule.given fun c hc ↦
      inModule_eq_true_iff.mp (inModule_of_mem_path hwritable c hc)
    rwa [segments_path hwritable, ← htext] at hspells

theorem spellsType_render {r : Reference} (h : r.IsRegular) :
    SpellsType r.typeName r.renderType.toList := by
  rw [renderType]
  cases htype : r.typeName with
  | none => exact .missing
  | some type =>
    rw [Option.elim_some, String.toList_append]
    exact .given (h.type type htype)

/-- After a marker the name of a member is written, and its label if it has one. -/
private theorem spellsMember_marked (isStatic : Bool) {name : String} {label : Option String}
    (hname : ':' ∉ name.toList)
    (hlabel : ∀ l ∈ label, l ≠ "" ∧ (isStatic = true ∨ name ≠ "event")) :
    SpellsMember (marked isStatic).1 (some name) label
      ((marked isStatic).2 :: name.toList ++ (label.elim "" (":" ++ ·)).toList) := by
  cases label with
  | none =>
    have hspells := SpellsMember.plain isStatic hname
    rwa [← List.append_nil (_ :: name.toList)] at hspells
  | some label =>
    obtain ⟨hne, hevent⟩ := hlabel label rfl
    have hspells := SpellsMember.labelled isStatic hname hevent hne
    rw [Option.elim_some, String.toList_append]
    exact hspells

/-- No label stands behind an event, or without a member. -/
private theorem IsRegular.label_eq_none {r : Reference} (h : r.IsRegular)
    (hmarker : r.marker = .none ∨ r.marker = .event) : r.label = none := by
  refine Option.eq_none_iff_forall_ne_some.mpr fun label hlabel ↦ ?_
  obtain ⟨-, hmarked⟩ := h.labelled label hlabel
  rcases hmarker with hm | hm <;> rw [hm] at hmarked <;> simp at hmarked

private theorem IsRegular.exists_name {r : Reference} (h : r.IsRegular)
    (hmarker : r.marker ≠ .none) : ∃ name, r.memberName = some name :=
  Option.ne_none_iff_exists'.mp (h.named.not.mpr hmarker)

theorem spellsMember_render {r : Reference} (h : r.IsRegular) :
    SpellsMember r.marker r.memberName r.label r.renderMember.toList := by
  rw [renderMember, renderLabel, String.toList_append, String.toList_append]
  cases hmarker : r.marker with
  | none =>
    rw [h.named.mpr hmarker, h.label_eq_none (.inl hmarker)]
    exact .missing
  | event =>
    obtain ⟨name, hname⟩ := h.exists_name (by rw [hmarker]; decide)
    rw [hname, h.label_eq_none (.inr hmarker)]
    have hspells := SpellsMember.event name
    rwa [← List.append_nil (_ ++ _)] at hspells
  | inst =>
    obtain ⟨name, hname⟩ := h.exists_name (by rw [hmarker]; decide)
    have hplain := h.plain (by rw [hmarker]; decide) name hname
    rw [hname]
    refine spellsMember_marked false hplain fun label hlabel ↦ ?_
    obtain ⟨hne, hmarked⟩ := h.labelled label hlabel
    rw [hmarker, hname] at hmarked
    exact ⟨hne, hmarked.imp (fun h ↦ by cases h) fun h heq ↦ h.2 (congrArg some heq)⟩
  | static =>
    obtain ⟨name, hname⟩ := h.exists_name (by rw [hmarker]; decide)
    have hplain := h.plain (by rw [hmarker]; decide) name hname
    rw [hname]
    exact spellsMember_marked true hplain fun label hlabel ↦
      ⟨(h.labelled label hlabel).1, .inl rfl⟩

/-- **The text of a regular reference spells it.** -/
theorem isSpelled_render {r : Reference} (h : r.IsRegular) : IsSpelled r r.render.toList := by
  refine ⟨_, _, _, ?_, spellsModule_render h, spellsType_render h, spellsMember_render h, h.apart⟩
  rw [render, String.toList_append, String.toList_append]

/-! ## The grammar -/

private theorem parse?_of_isReferenceForm {text : String} (h : IsReferenceForm (trim text.toList)) :
    parse? text = some (ofTrimmed (trim text.toList)) := if_pos (isTrimmedReference_iff.mpr h)

private theorem parse?_of_not_isReferenceForm {text : String}
    (h : ¬IsReferenceForm (trim text.toList)) : parse? text = none :=
  if_neg (isTrimmedReference_iff.not.mpr h)

/-- **Reading is exact for the grammar of references.** A text that is a reference is loose exactly if it starts
in none of the ways in which a part does, and is then kept whole. If it is not loose, it spells the reference that
is read from it, and no other. Regular references come back from the text that they are rendered as. -/
theorem grammar_exact :
    (∀ text : String, ¬IsReferenceForm (trim text.toList) → parse? text = none) ∧
    (∀ text : String, IsReferenceForm (trim text.toList) → ∃ r, parse? text = some r ∧
      (r.isLoose = true ↔ ∀ lead ∈ partLeads, ¬lead.toList <+: trim text.toList) ∧
      (r.isLoose = true →
        r = ⟨trimString text, none, none, some (trimString text), .none, none⟩) ∧
      ∀ r' : Reference, r'.raw = trimString text →
        (IsSpelled r' (trim text.toList) ↔ r.isLoose = false ∧ r = r')) ∧
    ∀ r : Reference, r.IsRegular → trimString r.render = r.render → 1 < r.render.length →
      parse? r.render = some { r with raw := r.render } := by
  refine ⟨fun text h ↦ parse?_of_not_isReferenceForm h, fun text h ↦ ?_, fun r hr htrim hlong ↦ ?_⟩
  · refine ⟨ofTrimmed (trim text.toList), parse?_of_isReferenceForm h, isLoose_ofTrimmed_iff h.ne_nil,
      fun hloose ↦ ofTrimmed_of_loose h.ne_nil ((isLoose_ofTrimmed_iff h.ne_nil).mp hloose),
      fun r' hraw ↦ isSpelled_iff h.ne_nil hraw⟩
  · have htrim' : trim r.render.toList = r.render.toList := by
      rw [← String.toList_ofList (l := trim r.render.toList), ← trimString, htrim]
    have hspelled := isSpelled_render hr
    have hform : IsReferenceForm (trim r.render.toList) := by
      rw [htrim']
      exact isReferenceForm_of_isSpelled hspelled (by rwa [String.length_toList])
    rw [parse?_of_isReferenceForm hform, htrim', ofTrimmed_of_isSpelled hspelled, String.ofList_toList]

/-- A reference with all its parts, written with blanks around it and with a slash too many. -/
def labelledStatic : Reference :=
  ⟨"module:a//b~C.m:L:M", some ["a", "b"], some "C", some "m", .static, some "L:M"⟩

/-- An event with a colon in its name. -/
def colonEvent : Reference := ⟨"", some ["a"], none, some "change:x", .event, none⟩

theorem isRegular_colonEvent : colonEvent.IsRegular where
  path := by simp [colonEvent, IsWritable]
  type := by simp [colonEvent]
  named := by decide
  plain h := absurd rfl h
  labelled := by simp [colonEvent]
  apart := by decide

theorem grammar_exact_colons :
    IsSpelled labelledStatic (trim " module:a//b~C.m:L:M ".toList) ∧
      colonEvent.render = "module:a#event:change:x" ∧
      parse? colonEvent.render = some { colonEvent with raw := colonEvent.render } := by
  have hform : IsReferenceForm (trim " module:a//b~C.m:L:M ".toList) :=
    isTrimmedReference_iff.mp (by decide)
  obtain ⟨r, hr, -, -, hspelled⟩ := grammar_exact.2.1 " module:a//b~C.m:L:M " hform
  have hread : parse? " module:a//b~C.m:L:M " = some labelledStatic := by decide
  rw [hread] at hr
  cases hr
  exact ⟨(hspelled labelledStatic (by decide)).mpr ⟨by decide, rfl⟩, by decide,
    grammar_exact.2.2 colonEvent isRegular_colonEvent (by decide) (by decide)⟩

end RefCheck.Reference
