import RefCheck.Proofs.Reference.Written

/-!
# The grammar of references

A reference is spelled as a module, a type and a member in a row, each of which may be missing. `IsSpelled` says
this as a relation between the fields of a reference and a text, without saying how the text is read. Several
texts spell one reference: slashes may be doubled in the name of a module, and a colon with nothing behind it is
no label.

## Where two spellings compete

A text never spells two references, because the grammar takes sides where it could. `#event:` starts an event, so
a member `event` of instances does not stand before a colon. A dot may stand in the name of a module, so a static
member does not follow a module without a type.

Reading is exact for this grammar: what it reads is spelled by the text (`isSpelled_ofTrimmed`), and what a text
spells is read from it (`ofTrimmed_of_isSpelled`). What is left outside are loose references, which start in none
of the ways in which a part does.
-/

namespace RefCheck.Reference

open RefCheck.Text

/-! ## Spelling -/

/-- The text of a module: its lead and a name, whose segments are the path. -/
inductive SpellsModule : Option (List String) → List Char → Prop
  | missing : SpellsModule none []
  | given {module : List Char} (hm : ∀ c ∈ module, c ≠ '~' ∧ c ≠ '#') :
      SpellsModule (some ((segments '/' module).map String.ofList)) ("module:".toList ++ module)

/-- The text of a type: a tilde and the name. -/
inductive SpellsType : Option String → List Char → Prop
  | missing : SpellsType none []
  | given {type : String} (ht : ∀ c ∈ type.toList, c ≠ '#' ∧ c ≠ '.') :
      SpellsType (some type) ('~' :: type.toList)

/-- The text of a member: its marker and its name, and for all but events a label after a colon. -/
inductive SpellsMember : Marker → Option String → Option String → List Char → Prop
  | missing : SpellsMember .none none none []
  | event (name : String) : SpellsMember .event (some name) none ("#event:".toList ++ name.toList)
  | plain (isStatic : Bool) {name : String} (hname : ':' ∉ name.toList) :
      SpellsMember (marked isStatic).1 (some name) none ((marked isStatic).2 :: name.toList)
  | unlabelled (isStatic : Bool) {name : String} (hname : ':' ∉ name.toList)
      (hevent : isStatic = true ∨ name ≠ "event") :
      SpellsMember (marked isStatic).1 (some name) none ((marked isStatic).2 :: name.toList ++ [':'])
  | labelled (isStatic : Bool) {name label : String} (hname : ':' ∉ name.toList)
      (hevent : isStatic = true ∨ name ≠ "event") (hlabel : label ≠ "") :
      SpellsMember (marked isStatic).1 (some name) (some label)
        ((marked isStatic).2 :: name.toList ++ ':' :: label.toList)

/-- The text spells the fields of a reference. -/
def IsSpelled (r : Reference) (t : List Char) : Prop :=
  ∃ module type member, t = module ++ type ++ member ∧ SpellsModule r.modulePath module ∧
    SpellsType r.typeName type ∧ SpellsMember r.marker r.memberName r.label member ∧
    (r.marker = .static → r.modulePath.isSome = true → r.typeName.isSome = true)

/-- A trimmed text that is a reference: it is neither a list marker nor an address of the web. -/
def IsReferenceForm (t : List Char) : Prop :=
  1 < t.length ∧ ¬"http://".toList <+: t ∧ ¬"https://".toList <+: t

theorem IsReferenceForm.ne_nil {t : List Char} (h : IsReferenceForm t) : t ≠ [] :=
  List.ne_nil_of_length_pos (Nat.lt_trans Nat.zero_lt_one h.1)

theorem isTrimmedReference_iff {t : List Char} :
    isTrimmedReference t = true ↔ IsReferenceForm t := by
  have hleads : externalLeads = ["http://".toList, "https://".toList] := rfl
  rw [isTrimmedReference, IsReferenceForm, hleads, Bool.and_eq_true, decide_eq_true_eq,
    ← startsWith_eq_true_iff, ← startsWith_eq_true_iff]
  simp

/-! ## What starts a part -/

/-- Nothing follows, or what follows starts as a member does. -/
def StartsMember (cs : List Char) : Prop := ∀ c ∈ cs.head?, c = '#' ∨ c = '.'

theorem StartsMember.inType_eq_false {cs : List Char} (h : StartsMember cs) :
    ∀ c ∈ cs.head?, inType c = false := by
  intro c hc
  rcases h c hc with rfl | rfl <;> rfl

/-- A text that starts as a member does starts with no type. -/
theorem StartsMember.takeType_eq {cs : List Char} (h : StartsMember cs) :
    takeType cs = (none, cs) := by
  cases cs with
  | nil => rfl
  | cons c cs =>
    refine takeType_of_ne ?_ cs
    rcases h c rfl with rfl | rfl <;> decide

/-- A text that starts as a type or a member does starts with no module. -/
private theorem takeModule_eq {cs : List Char} (h : ∀ c ∈ cs.head?, c = '~' ∨ c = '#' ∨ c = '.') :
    takeModule cs = (none, cs) := by
  cases cs with
  | nil => rfl
  | cons c cs =>
    refine takeModule_of_ne ?_ cs
    rcases h c rfl with rfl | rfl | rfl <;> decide

theorem inModule_eq_true_iff {c : Char} : inModule c = true ↔ c ≠ '~' ∧ c ≠ '#' := by
  rw [inModule, Bool.and_eq_true, bne_iff_ne, bne_iff_ne]

theorem inType_eq_true_iff {c : Char} : inType c = true ↔ c ≠ '#' ∧ c ≠ '.' := by
  rw [inType, Bool.and_eq_true, bne_iff_ne, bne_iff_ne]

/-- Where a part ends, the next character is none that may stand in it. -/
private theorem head?_dropWhile {p : Char → Bool} (cs : List Char) :
    ∀ c ∈ (cs.dropWhile p).head?, p c = false := by
  intro c hc
  have hnot := List.head?_dropWhile_not p cs
  rw [Option.mem_def.mp hc] at hnot
  simpa using hnot

private theorem mem_takeWhile {p : Char → Bool} {cs : List Char} :
    ∀ c ∈ cs.takeWhile p, p c = true := fun _ hc ↦ List.mem_takeWhile_imp hc

/-! ## Members -/

theorem SpellsMember.startsMember {marker : Marker} {name label : Option String} {cs : List Char}
    (h : SpellsMember marker name label cs) : StartsMember cs := by
  have hmarked : ∀ isStatic : Bool, (marked isStatic).2 = '#' ∨ (marked isStatic).2 = '.' := by decide
  intro c hc
  cases h with
  | missing => cases hc
  | event name =>
    cases hc
    exact .inl rfl
  | plain isStatic | unlabelled isStatic | labelled isStatic =>
    cases hc
    exact hmarked isStatic

/-- A static member starts with its dot. -/
theorem SpellsMember.head?_of_static {name label : Option String} {cs : List Char}
    (h : SpellsMember .static name label cs) : cs.head? = some '.' := by
  have hmarked : ∀ isStatic : Bool, Marker.static = (marked isStatic).1 → (marked isStatic).2 = '.' := by
    decide
  generalize hmarker : Marker.static = marker at h
  cases h with
  | missing | event => cases hmarker
  | plain isStatic | unlabelled isStatic | labelled isStatic =>
    exact congrArg some (hmarked isStatic hmarker)

/-- A member that starts with a dot is static. -/
theorem SpellsMember.static_of_head? {marker : Marker} {name label : Option String} {cs : List Char}
    (h : SpellsMember marker name label cs) (hdot : cs.head? = some '.') : marker = .static := by
  have hmarked : ∀ isStatic : Bool, (marked isStatic).2 = '.' → (marked isStatic).1 = .static := by
    decide
  cases h with
  | missing | event => cases hdot
  | plain isStatic | unlabelled isStatic | labelled isStatic =>
    exact hmarked isStatic (Option.some.inj hdot)

/-- Without a marker there is no name. -/
theorem SpellsMember.name_of_none {name label : Option String} {cs : List Char}
    (h : SpellsMember .none name label cs) : name = none := by
  have hmarked : ∀ isStatic : Bool, Marker.none ≠ (marked isStatic).1 := by decide
  generalize hmarker : Marker.none = marker at h
  cases h with
  | missing => rfl
  | event => cases hmarker
  | plain isStatic | unlabelled isStatic | labelled isStatic => exact absurd hmarker (hmarked isStatic)

/-- **What spells a member** is read as it. -/
theorem SpellsMember.readMember_eq {marker : Marker} {name label : Option String} {cs : List Char}
    (h : SpellsMember marker name label cs) :
    readMember cs = ⟨marker, name.map String.toList, label.map String.toList⟩ := by
  have hne : ∀ {isStatic : Bool} {name : String}, isStatic = true ∨ name ≠ "event" →
      isStatic = true ∨ name.toList ≠ "event".toList :=
    fun h ↦ h.imp_right fun hname heq ↦ hname (String.toList_inj.mp heq)
  cases h with
  | missing => rfl
  | event name => exact readMember_event name.toList
  | plain isStatic hname => exact readMember_name isStatic hname
  | unlabelled isStatic hname hevent => exact readMember_no_label isStatic hname (hne hevent)
  | labelled isStatic hname hevent hlabel =>
    exact readMember_label isStatic hname (fun h ↦ hlabel (String.toList_eq_nil_iff.mp h))
      (hne hevent)

/-- After a marker stands a member, whatever its name and label are. -/
private theorem spellsMember_readNamed (isStatic : Bool) {cs : List Char}
    (hevent : ∀ rest, (marked isStatic).2 :: cs ≠ eventLead ++ rest) :
    SpellsMember (readNamed (marked isStatic).1 cs).marker
      ((readNamed (marked isStatic).1 cs).name.map String.ofList)
      ((readNamed (marked isStatic).1 cs).label.map String.ofList) ((marked isStatic).2 :: cs) := by
  by_cases hcolon : ':' ∈ cs
  · obtain ⟨name, rest, rfl, hname⟩ := List.eq_append_cons_of_mem hcolon
    have hname' : ':' ∉ (String.ofList name).toList := by rwa [String.toList_ofList]
    have hplain : isStatic = true ∨ String.ofList name ≠ "event" := by
      cases isStatic with
      | true => exact .inl rfl
      | false =>
        refine .inr fun heq ↦ hevent rest ?_
        rw [show name = "event".toList by rw [← heq, String.toList_ofList]]
        rfl
    rw [readNamed, cutAt_append hname]
    cases rest with
    | nil =>
      have hspells := SpellsMember.unlabelled isStatic hname' hplain
      rwa [String.toList_ofList] at hspells
    | cons c rest =>
      have hlabel : String.ofList (c :: rest) ≠ "" :=
        fun h ↦ List.cons_ne_nil c rest (String.ofList_eq_empty_iff.mp h)
      have hspells := SpellsMember.labelled isStatic hname' hplain hlabel
      rwa [String.toList_ofList, String.toList_ofList] at hspells
  · have hcolon' : ':' ∉ (String.ofList cs).toList := by rwa [String.toList_ofList]
    have hspells := SpellsMember.plain isStatic hcolon'
    rw [readNamed, cutAt_of_not_mem hcolon]
    rwa [String.toList_ofList] at hspells

/-- **What is read as a member** is spelled by the text, if the text starts as a member does. -/
theorem spellsMember_readMember {cs : List Char} (h : StartsMember cs) :
    SpellsMember (readMember cs).marker ((readMember cs).name.map String.ofList)
      ((readMember cs).label.map String.ofList) cs := by
  by_cases hevent : ∃ rest, cs = eventLead ++ rest
  · obtain ⟨rest, rfl⟩ := hevent
    have hspells := SpellsMember.event (String.ofList rest)
    have hrest : (String.ofList rest).toList = rest := String.toList_ofList
    rw [hrest] at hspells
    rw [readMember_event]
    exact hspells
  · have hnot : ∀ rest, cs ≠ eventLead ++ rest := fun rest heq ↦ hevent ⟨rest, heq⟩
    have hnone : dropLead? eventLead cs = none :=
      Option.eq_none_iff_forall_ne_some.mpr fun rest hrest ↦
        hnot rest (dropLead?_eq_some_iff.mp hrest)
    cases cs with
    | nil => exact .missing
    | cons c cs =>
      unfold readMember
      rw [hnone]
      rcases h c rfl with rfl | rfl
      · exact spellsMember_readNamed false hnot
      · exact spellsMember_readNamed true hnot

/-- What does not start as a member does is kept as a loose reference. -/
theorem readMember_of_not_startsMember {cs : List Char} (h : ¬StartsMember cs) :
    readMember cs = ⟨.none, some cs, none⟩ := by
  cases cs with
  | nil => exact absurd (fun c hc ↦ by cases hc) h
  | cons c cs =>
    have hhash : c ≠ '#' := fun hc ↦ h fun d hd ↦ by cases hd; exact .inl hc
    have hdot : c ≠ '.' := fun hc ↦ h fun d hd ↦ by cases hd; exact .inr hc
    have hnone : dropLead? eventLead (c :: cs) = none := by
      rw [show eventLead = '#' :: "event:".toList from rfl, dropLead?, if_neg (Ne.symm hhash)]
    unfold readMember
    rw [hnone]
    dsimp only
    split
    · next heq => cases heq
    · next heq => exact absurd (List.cons.inj heq).1 hhash
    · next heq => exact absurd (List.cons.inj heq).1 hdot
    · rfl

/-! ## Types and modules -/

/-- What is read as a type is spelled by the start of the text, and what follows a type starts as a member
does. -/
theorem spellsType_takeType (cs : List Char) :
    ∃ type, cs = type ++ (takeType cs).2 ∧
      SpellsType ((takeType cs).1.map String.ofList) type ∧
      ((takeType cs).1.isSome = true → StartsMember (takeType cs).2) := by
  unfold takeType
  split
  · next rest =>
    refine ⟨'~' :: rest.takeWhile inType, ?_, ?_, fun _ c hc ↦ ?_⟩
    · rw [List.cons_append, List.takeWhile_append_dropWhile]
    · have hspells := @SpellsType.given (String.ofList (rest.takeWhile inType))
        fun c hc ↦ inType_eq_true_iff.mp (mem_takeWhile c (by rwa [String.toList_ofList] at hc))
      rwa [String.toList_ofList] at hspells
    · have hstop := Bool.eq_false_iff.mp (head?_dropWhile rest c hc)
      rw [Ne, inType_eq_true_iff, not_and_or, not_not, not_not] at hstop
      exact hstop
  · exact ⟨[], rfl, .missing, fun h ↦ by cases h⟩

/-- What is read as a module is spelled by the start of the text, and neither a name nor a dot follows it. -/
theorem spellsModule_takeModule (cs : List Char) :
    ∃ module, cs = module ++ (takeModule cs).2 ∧
      SpellsModule ((takeModule cs).1.map fun m ↦ (segments '/' m).map String.ofList) module ∧
      ((takeModule cs).1.isSome = true → ∀ c ∈ (takeModule cs).2.head?, c = '~' ∨ c = '#') := by
  unfold takeModule
  split
  · next rest hrest =>
    refine ⟨moduleLead ++ rest.takeWhile inModule, ?_, ?_, fun _ c hc ↦ ?_⟩
    · rw [List.append_assoc, List.takeWhile_append_dropWhile]
      exact dropLead?_eq_some_iff.mp hrest
    · exact .given fun c hc ↦ inModule_eq_true_iff.mp (mem_takeWhile c hc)
    · have hstop := Bool.eq_false_iff.mp (head?_dropWhile rest c hc)
      rw [Ne, inModule_eq_true_iff, not_and_or, not_not, not_not] at hstop
      exact hstop
  · exact ⟨[], rfl, .missing, fun h ↦ by cases h⟩

/-- A text that starts as a type or a member does is read up to its member. -/
private theorem startsMember_takeType {cs : List Char}
    (h : ∀ c ∈ cs.head?, c = '~' ∨ c = '#' ∨ c = '.') : StartsMember (takeType cs).2 := by
  cases cs with
  | nil => exact fun c hc ↦ by cases hc
  | cons c cs =>
    obtain ⟨type, -, -, hstarts⟩ := spellsType_takeType (c :: cs)
    rcases h c rfl with rfl | hc
    · exact hstarts rfl
    · have hself : StartsMember (c :: cs) := fun d hd ↦ by cases hd; exact hc
      rwa [hself.takeType_eq]

/-! ## Reading is exact -/

/-- All that follows the type of a text. -/
def memberText (t : List Char) : List Char := (takeType (takeModule t).2).2

theorem takeModule_of_no_lead {t : List Char} (h : ¬moduleLead <+: t) :
    takeModule t = (none, t) := by
  have hlead : dropLead? moduleLead t = none :=
    Option.eq_none_iff_forall_ne_some.mpr fun rest hrest ↦
      h ⟨rest, (dropLead?_eq_some_iff.mp hrest).symm⟩
  rw [takeModule, hlead]

/-- The ways in which the parts of a reference start. -/
def partLeads : List String := ["module:", "~", "#", "."]

theorem exists_partLeads_iff {c : Char} {cs : List Char} :
    (∃ lead ∈ partLeads, lead.toList <+: c :: cs) ↔
      moduleLead <+: c :: cs ∨ c = '~' ∨ c = '#' ∨ c = '.' := by
  have hmodule : "module:".toList = moduleLead := rfl
  simp [partLeads, hmodule, eq_comm]

/-- A text starts in one of the ways in which a part does exactly if its member starts as one. -/
theorem startsMember_memberText_iff {t : List Char} (ht : t ≠ []) :
    StartsMember (memberText t) ↔ ∃ lead ∈ partLeads, lead.toList <+: t := by
  obtain ⟨c, cs, rfl⟩ := List.exists_cons_of_ne_nil ht
  rw [exists_partLeads_iff, memberText]
  by_cases hmodule : moduleLead <+: c :: cs
  · refine iff_of_true (startsMember_takeType fun d hd ↦ ?_) (.inl hmodule)
    obtain ⟨module, -, -, hstop⟩ := spellsModule_takeModule (c :: cs)
    have hsome : (takeModule (c :: cs)).1.isSome = true := by
      obtain ⟨rest, hrest⟩ := hmodule
      rw [takeModule, dropLead?_eq_some_iff.mpr hrest.symm]
      rfl
    exact (hstop hsome d hd).imp_right .inl
  · rw [takeModule_of_no_lead hmodule, or_iff_right hmodule]
    constructor
    · intro h
      by_cases htype : c = '~'
      · exact .inl htype
      · rw [takeType_of_ne htype] at h
        exact .inr (h c rfl)
    · exact fun h ↦ startsMember_takeType fun d hd ↦ by cases hd; exact h

/-- **What is read is spelled by the text**, if the text starts in one of the ways in which a part does. -/
theorem isSpelled_ofTrimmed {t : List Char} (h : StartsMember (memberText t)) :
    IsSpelled (ofTrimmed t) t := by
  obtain ⟨module, hmodule, hspells, hstop⟩ := spellsModule_takeModule t
  obtain ⟨type, htype, hspells', -⟩ := spellsType_takeType (takeModule t).2
  have hmember := spellsMember_readMember h
  refine ⟨module, type, memberText t, ?_, hspells, hspells', hmember, ?_⟩
  · rw [List.append_assoc, memberText, ← htype, ← hmodule]
  · intro hstatic hsome
    change (readMember (memberText t)).marker = .static at hstatic
    rw [hstatic] at hmember
    rw [ofTrimmed, Option.isSome_map] at hsome ⊢
    rw [Option.isSome_iff_ne_none]
    intro hnone
    -- without a type the member follows the module at once, and no dot does
    rw [hnone] at hspells'
    cases hspells'
    have hdot : (takeModule t).2.head? = some '.' := by
      rw [htype, List.nil_append]
      exact hmember.head?_of_static
    rcases hstop hsome '.' hdot with h | h <;> cases h

/-- A text is kept whole if it starts in none of the ways in which a part does. -/
theorem ofTrimmed_of_loose {t : List Char} (ht : t ≠ [])
    (h : ∀ lead ∈ partLeads, ¬lead.toList <+: t) :
    ofTrimmed t = ⟨String.ofList t, none, none, some (String.ofList t), .none, none⟩ := by
  obtain ⟨c, cs, rfl⟩ := List.exists_cons_of_ne_nil ht
  have hnone : ¬∃ lead ∈ partLeads, lead.toList <+: c :: cs := fun ⟨lead, hlead, hstart⟩ ↦
    h lead hlead hstart
  have hmember := (startsMember_memberText_iff ht).not.mpr hnone
  rw [exists_partLeads_iff, not_or, not_or] at hnone
  obtain ⟨hmodule, htype, -⟩ := hnone
  rw [memberText, takeModule_of_no_lead hmodule, takeType_of_ne htype] at hmember
  rw [ofTrimmed, takeModule_of_no_lead hmodule]
  dsimp only
  rw [takeType_of_ne htype, readMember_of_not_startsMember hmember]
  rfl

/-- **A reference is loose** exactly if its text starts in none of the ways in which a part does. -/
theorem isLoose_ofTrimmed_iff {t : List Char} (ht : t ≠ []) :
    (ofTrimmed t).isLoose = true ↔ ∀ lead ∈ partLeads, ¬lead.toList <+: t := by
  constructor
  · intro hloose lead hlead hstart
    have hmember := spellsMember_readMember ((startsMember_memberText_iff ht).mpr ⟨lead, hlead, hstart⟩)
    obtain ⟨hmarker, hname⟩ := (Bool.and_eq_true _ _).mp hloose
    rw [show (readMember (memberText t)).marker = .none from eq_of_beq hmarker] at hmember
    rw [show (ofTrimmed t).memberName = none from hmember.name_of_none] at hname
    cases hname
  · intro h
    rw [ofTrimmed_of_loose ht h]
    rfl

/-! ## What is spelled is read -/

theorem SpellsType.takeType_append {type : Option String} {cs rest : List Char}
    (h : SpellsType type cs) (hrest : StartsMember rest) :
    takeType (cs ++ rest) = (type.map String.toList, rest) := by
  cases h with
  | missing => exact hrest.takeType_eq
  | given ht =>
    exact Reference.takeType_append (fun c hc ↦ inType_eq_true_iff.mpr (ht c hc))
      hrest.inType_eq_false

/-- Behind a module a type or a member follows, and without one a static member may follow too. -/
theorem SpellsModule.takeModule_append {path : Option (List String)} {cs rest : List Char}
    (h : SpellsModule path cs)
    (hrest : ∀ c ∈ rest.head?, c = '~' ∨ c = '#' ∨ c = '.' ∧ path = none) :
    ((takeModule (cs ++ rest)).1.map fun m ↦ (segments '/' m).map String.ofList) = path ∧
      (takeModule (cs ++ rest)).2 = rest := by
  cases h with
  | missing =>
    have htake : takeModule ([] ++ rest) = (none, rest) :=
      takeModule_eq fun c hc ↦ (hrest c hc).imp_right fun h ↦ h.imp_right And.left
    rw [htake]
    exact ⟨rfl, rfl⟩
  | given hm =>
    have hstop : ∀ c ∈ rest.head?, inModule c = false := by
      intro c hc
      rcases hrest c hc with rfl | rfl | ⟨-, hnone⟩
      · rfl
      · rfl
      · cases hnone
    have htake := Reference.takeModule_append (fun c hc ↦ inModule_eq_true_iff.mpr (hm c hc)) hstop
    rw [show "module:".toList = moduleLead from rfl, htake]
    exact ⟨rfl, rfl⟩

/-- What may follow a module in a text that spells a reference. -/
private theorem head?_afterModule {r : Reference} {type member : List Char}
    (htype : SpellsType r.typeName type) (hmember : SpellsMember r.marker r.memberName r.label member)
    (hstatic : r.marker = .static → r.modulePath.isSome = true → r.typeName.isSome = true) :
    ∀ c ∈ (type ++ member).head?, c = '~' ∨ c = '#' ∨ c = '.' ∧ r.modulePath = none := by
  intro c hc
  generalize htypeName : r.typeName = typeName at htype hstatic
  cases htype with
  | given =>
    cases hc
    exact .inl rfl
  | missing =>
    rcases hmember.startsMember c hc with rfl | rfl
    · exact .inr (.inl rfl)
    · refine .inr (.inr ⟨rfl, Option.not_isSome_iff_eq_none.mp fun hsome ↦ ?_⟩)
      exact absurd (hstatic (hmember.static_of_head? hc) hsome) Bool.false_ne_true

/-- **What a text spells is read from it.** -/
theorem ofTrimmed_of_isSpelled {r : Reference} {t : List Char} (h : IsSpelled r t) :
    ofTrimmed t = { r with raw := String.ofList t } := by
  obtain ⟨module, type, member, rfl, hmodule, htype, hmember, hstatic⟩ := h
  obtain ⟨hpath, hafter⟩ :=
    hmodule.takeModule_append (head?_afterModule htype hmember hstatic)
  rw [← List.append_assoc] at hpath hafter
  rw [ofTrimmed]
  dsimp only
  rw [hpath, hafter, htype.takeType_append hmember.startsMember]
  dsimp only
  rw [hmember.readMember_eq]
  simp

/-- What is spelled is not loose. -/
theorem isLoose_of_isSpelled {r : Reference} {t : List Char} (h : IsSpelled r t) :
    r.isLoose = false := by
  obtain ⟨_, _, member, -, -, -, hmember, -⟩ := h
  rw [Bool.eq_false_iff]
  intro hloose
  obtain ⟨hmarker, hname⟩ := (Bool.and_eq_true _ _).mp hloose
  rw [eq_of_beq hmarker] at hmember
  rw [hmember.name_of_none] at hname
  cases hname

/-- What is spelled starts in one of the ways in which a part does. -/
theorem exists_partLeads_of_isSpelled {r : Reference} {t : List Char} (ht : t ≠ [])
    (h : IsSpelled r t) : ∃ lead ∈ partLeads, lead.toList <+: t := by
  have hloose : (ofTrimmed t).isLoose = false := by
    rw [ofTrimmed_of_isSpelled h]
    exact isLoose_of_isSpelled h
  rw [Bool.eq_false_iff, Ne, isLoose_ofTrimmed_iff ht] at hloose
  push Not at hloose
  exact hloose

/-- What is spelled is no address of the web. -/
theorem isReferenceForm_of_isSpelled {r : Reference} {t : List Char} (h : IsSpelled r t)
    (hlong : 1 < t.length) : IsReferenceForm t := by
  obtain ⟨c, cs, rfl⟩ := List.exists_cons_of_length_pos (Nat.lt_trans Nat.zero_lt_one hlong)
  have hstart := exists_partLeads_iff.mp (exists_partLeads_of_isSpelled (List.cons_ne_nil c cs) h)
  have hc : c ≠ 'h' := by
    rintro rfl
    rcases hstart with hmodule | hother
    · exact absurd (List.cons_prefix_cons.mp hmodule).1 (by decide)
    · exact absurd hother (by decide)
  have hweb : ∀ lead, ¬ 'h' :: lead <+: c :: cs := fun lead hlead ↦
    hc (List.cons_prefix_cons.mp hlead).1.symm
  exact ⟨hlong, hweb _, hweb _⟩

/-- **A text that is not loose spells one reference**, the one that is read from it. -/
theorem isSpelled_iff {t : List Char} (ht : t ≠ []) {r : Reference} (hraw : r.raw = String.ofList t) :
    IsSpelled r t ↔ (ofTrimmed t).isLoose = false ∧ ofTrimmed t = r := by
  constructor
  · intro hspelled
    have hread : ofTrimmed t = r := by rw [ofTrimmed_of_isSpelled hspelled, ← hraw]
    exact ⟨hread ▸ isLoose_of_isSpelled hspelled, hread⟩
  · rintro ⟨hloose, rfl⟩
    rw [Bool.eq_false_iff, Ne, isLoose_ofTrimmed_iff ht] at hloose
    push Not at hloose
    exact isSpelled_ofTrimmed ((startsMember_memberText_iff ht).mpr hloose)

end RefCheck.Reference
