import RefCheck.Proofs.Text.Joined
import RefCheck.Reference.Grammar

/-!
# Reading references that were written

A reference can be written in three ways, by how it says where its member is: with a module and a type, with
a type alone, or with neither. For each way there is one law here that says what reading gives back:
`parse?_absolute`, `parse?_relative` and `parse?_member`. In each of them the text is known up to its last
part, whose end is trimmed, so that every text with this start is covered.

`readMember` is the same for all three, and its laws are at the end: a member without a colon in its name
comes back, with a label or without, and an event comes back whatever its name is.
-/

namespace RefCheck.Reference

open RefCheck.Text

/-! ## Addresses -/

/-- The text that names a type together with its module. -/
def typeAddress (path : List String) (name : String) : String :=
  "module:" ++ "/".intercalate path ++ "~" ++ name

/-- The segments of a module's name can be told from one another, and from what follows them. -/
def IsWritable (path : List String) : Prop :=
  ∀ segment ∈ path, segment ≠ "" ∧ '/' ∉ segment.toList ∧ '~' ∉ segment.toList ∧
    '#' ∉ segment.toList

theorem toList_typeAddress (path : List String) (name : String) :
    (typeAddress path name).toList
      = moduleLead ++ joinWith '/' (path.map String.toList) ++ '~' :: name.toList := by
  have hslash : "/".toList = ['/'] := rfl
  have htilde : "~".toList = ['~'] := rfl
  rw [typeAddress, String.toList_append, String.toList_append, String.toList_append,
    String.toList_intercalate, hslash, htilde, intercalate_eq_joinWith, List.append_assoc,
    List.append_assoc, List.append_assoc]
  rfl

/-- What an address holds between the module's lead and the type is read back as the path. -/
theorem segments_path {path : List String} (hpath : IsWritable path) :
    (segments '/' (joinWith '/' (path.map String.toList))).map String.ofList = path := by
  rw [segments_joinWith, List.map_map]
  · exact (List.map_congr_left fun s _ ↦ String.ofList_toList).trans (List.map_id path)
  · intro s hs
    obtain ⟨segment, hsegment, rfl⟩ := List.mem_map.mp hs
    exact ⟨fun hnil ↦ (hpath segment hsegment).1 (String.toList_eq_nil_iff.mp hnil),
      (hpath segment hsegment).2.1⟩

theorem inModule_of_mem_path {path : List String} (hpath : IsWritable path) :
    ∀ c ∈ joinWith '/' (path.map String.toList), inModule c = true := by
  intro c hc
  rcases mem_joinWith hc with rfl | ⟨s, hs, hcs⟩
  · rfl
  · obtain ⟨segment, hsegment, rfl⟩ := List.mem_map.mp hs
    obtain ⟨-, -, htilde, hhash⟩ := hpath segment hsegment
    rw [inModule, Bool.and_eq_true, bne_iff_ne, bne_iff_ne]
    exact ⟨fun h ↦ htilde (h ▸ hcs), fun h ↦ hhash (h ▸ hcs)⟩

/-! ## Parts -/

/-- The reference that has these parts. -/
def ofParts (raw : List Char) (path : Option (List String)) (type : Option (List Char))
    (member : Member) : Reference where
  raw := String.ofList raw
  modulePath := path
  typeName := type.map String.ofList
  memberName := member.name.map String.ofList
  marker := member.marker
  label := member.label.map String.ofList

/-- A module is read up to what cannot stand in its name. -/
theorem takeModule_append {module rest : List Char} (hm : ∀ c ∈ module, inModule c = true)
    (hrest : ∀ c ∈ rest.head?, inModule c = false) :
    takeModule (moduleLead ++ module ++ rest) = (some module, rest) := by
  have hlead : dropLead? moduleLead (moduleLead ++ module ++ rest) = some (module ++ rest) :=
    dropLead?_eq_some_iff.mpr (List.append_assoc _ _ _)
  rw [takeModule, hlead]
  dsimp only
  rw [List.takeWhile_append_of_pos hm, List.dropWhile_append_of_pos hm]
  cases rest with
  | nil => rw [List.takeWhile_nil, List.dropWhile_nil, List.append_nil]
  | cons c rest =>
    have hc := Bool.eq_false_iff.mp (hrest c rfl)
    rw [List.takeWhile_cons_of_neg hc, List.dropWhile_cons_of_neg hc, List.append_nil]

theorem takeModule_of_ne {c : Char} (hc : c ≠ 'm') (cs : List Char) :
    takeModule (c :: cs) = (none, c :: cs) := by
  have hlead : moduleLead = 'm' :: "odule:".toList := rfl
  rw [takeModule, hlead, dropLead?, if_neg (Ne.symm hc)]

/-- A type is read up to what cannot stand in its name. -/
theorem takeType_append {type rest : List Char} (ht : ∀ c ∈ type, inType c = true)
    (hrest : ∀ c ∈ rest.head?, inType c = false) :
    takeType ('~' :: type ++ rest) = (some type, rest) := by
  rw [List.cons_append, takeType, List.takeWhile_append_of_pos ht, List.dropWhile_append_of_pos ht]
  cases rest with
  | nil => rw [List.takeWhile_nil, List.dropWhile_nil, List.append_nil]
  | cons c rest =>
    have hc := Bool.eq_false_iff.mp (hrest c rfl)
    rw [List.takeWhile_cons_of_neg hc, List.dropWhile_cons_of_neg hc, List.append_nil]

theorem takeType_of_ne {c : Char} (hc : c ≠ '~') (cs : List Char) :
    takeType (c :: cs) = (none, c :: cs) := by
  unfold takeType
  split
  · next heq => exact absurd (List.cons.inj heq).1 hc
  · rfl

theorem isTrimmedReference_cons {c : Char} (hc : c ≠ 'h') {cs : List Char} (hcs : cs ≠ []) :
    isTrimmedReference (c :: cs) = true := by
  have hleads : externalLeads = ['h' :: "ttp://".toList, 'h' :: "ttps://".toList] := rfl
  have hpos : 0 < cs.length := List.length_pos_iff.mpr hcs
  simp [isTrimmedReference, hleads, startsWith, dropLead?, Ne.symm hc, hpos]

/-! ## The three ways -/

/-- A text that does not start as an address of the web is read once its end is trimmed. -/
private theorem parse?_eq_ofTrimmed {text : String} {c : Char} {p x : List Char}
    (htext : text.toList = c :: p ++ x) (hblank : isBlank c = false) (hc : c ≠ 'h')
    (hx : trimEnd x ≠ []) :
    parse? text = some (ofTrimmed (trim text.toList)) ∧ trim text.toList = c :: p ++ trimEnd x := by
  have htrim : trim text.toList = c :: p ++ trimEnd x := by rw [htext, trim_append hblank p hx]
  refine ⟨if_pos ?_, htrim⟩
  rw [htrim]
  exact isTrimmedReference_cons hc (List.append_ne_nil_of_right_ne_nil p hx)

/-- **A reference with its module** is read as the path, the type and what follows. -/
theorem parse?_absolute (text : String) {path : List String} {x : List Char}
    (htext : text.toList = moduleLead ++ joinWith '/' (path.map String.toList) ++ '~' :: x)
    (hpath : IsWritable path) (hx : trimEnd x ≠ []) :
    parse? text = some (ofParts (trim text.toList) (some path)
      (some ((trimEnd x).takeWhile inType)) (readMember ((trimEnd x).dropWhile inType))) := by
  have hlead : moduleLead = 'm' :: "odule:".toList := rfl
  -- all up to the tilde is what trimming leaves alone
  obtain ⟨hread, htrim⟩ := parse?_eq_ofTrimmed
    (p := "odule:".toList ++ joinWith '/' (path.map String.toList) ++ ['~']) (x := x)
    (by rw [htext, hlead]; simp) (by decide : isBlank 'm' = false) (by decide) hx
  have htake : takeModule (trim text.toList)
      = (some (joinWith '/' (path.map String.toList)), '~' :: trimEnd x) := by
    have htilde : ∀ c ∈ ('~' :: trimEnd x).head?, inModule c = false := by
      rintro c ⟨⟩
      rfl
    rw [← takeModule_append (inModule_of_mem_path hpath) htilde, htrim, hlead]
    simp
  rw [hread, ofTrimmed, htake]
  dsimp only [takeType, Option.map_some]
  rw [segments_path hpath]
  rfl

/-- **A reference with a type alone** is read as the type and what follows. -/
theorem parse?_relative (text : String) {x : List Char} (htext : text.toList = '~' :: x)
    (hx : trimEnd x ≠ []) :
    parse? text = some (ofParts (trim text.toList) none (some ((trimEnd x).takeWhile inType))
      (readMember ((trimEnd x).dropWhile inType))) := by
  obtain ⟨hread, htrim⟩ := parse?_eq_ofTrimmed (p := []) htext
    (by decide : isBlank '~' = false) (by decide) hx
  have htake : takeModule (trim text.toList) = (none, '~' :: trimEnd x) := by
    rw [htrim, List.singleton_append, takeModule_of_ne (by decide)]
  rw [hread, ofTrimmed, htake]
  rfl

/-- **A reference with neither** is read as its member. -/
theorem parse?_member {text : String} {c : Char} {x : List Char} (htext : text.toList = c :: x)
    (hc : c = '#' ∨ c = '.') (hx : trimEnd x ≠ []) :
    parse? text
      = some (ofParts (trim text.toList) none none (readMember (c :: trimEnd x))) := by
  have hmarker : isBlank c = false ∧ c ≠ 'h' ∧ c ≠ 'm' ∧ c ≠ '~' := by
    rcases hc with rfl | rfl <;> decide
  obtain ⟨hblank, hweb, hmodule, htype⟩ := hmarker
  obtain ⟨hread, htrim⟩ := parse?_eq_ofTrimmed (p := []) htext hblank hweb hx
  have htake : takeModule (trim text.toList) = (none, c :: trimEnd x) := by
    rw [htrim, List.singleton_append, takeModule_of_ne hmodule]
  rw [hread, ofTrimmed, htake]
  dsimp only
  rw [takeType_of_ne htype]
  rfl

/-! ## Members -/

theorem readMember_event (name : List Char) :
    readMember (eventLead ++ name) = ⟨.event, some name, none⟩ := by
  unfold readMember
  rw [dropLead?_eq_some_iff.mpr rfl]

/-- After a hash stands the name of a member, unless it is the lead of an event. -/
theorem readMember_inst {cs : List Char}
    (h : ∀ rest, cutAt ':' cs ≠ ("event".toList, some rest)) :
    readMember ('#' :: cs) = readNamed .inst cs := by
  have hnone : dropLead? eventLead ('#' :: cs) = none := by
    rw [Option.eq_none_iff_forall_ne_some]
    intro rest hrest
    have hcs : cs = "event".toList ++ ':' :: rest :=
      (List.cons.inj (dropLead?_eq_some_iff.mp hrest)).2
    exact h rest (by rw [hcs, cutAt_append (by decide)])
  unfold readMember
  rw [hnone]
  rfl

/-- The marker of a member that is no event, and the character that writes it. -/
def marked (isStatic : Bool) : Marker × Char := if isStatic then (.static, '.') else (.inst, '#')

/-- A name without a colon comes back. -/
theorem readMember_name (isStatic : Bool) {name : List Char} (hname : ':' ∉ name) :
    readMember ((marked isStatic).2 :: name) = ⟨(marked isStatic).1, some name, none⟩ := by
  have hcut := cutAt_of_not_mem hname
  have hread : ∀ marker, readNamed marker name = ⟨marker, some name, none⟩ := by
    intro marker
    rw [readNamed, hcut]
  cases isStatic with
  | true => exact hread .static
  | false =>
    -- the lead of an event has a colon, and there is none
    refine (readMember_inst fun rest ↦ ?_).trans (hread .inst)
    rw [hcut]
    exact fun h ↦ Option.some_ne_none rest (Prod.mk.inj h).2.symm

/-- Up to a colon a member is read as its name, unless both together read as an event. -/
private theorem readMember_colon (isStatic : Bool) {name : List Char} (hname : ':' ∉ name)
    (hevent : isStatic = true ∨ name ≠ "event".toList) (rest : List Char) :
    readMember ((marked isStatic).2 :: name ++ ':' :: rest)
      = readNamed (marked isStatic).1 (name ++ ':' :: rest) := by
  cases isStatic with
  | true => rfl
  | false =>
    rw [List.cons_append]
    refine readMember_inst fun rest' ↦ ?_
    rw [cutAt_append hname]
    exact fun h ↦ (hevent.resolve_left Bool.false_ne_true) (Prod.mk.inj h).1

/-- A name without a colon comes back with the label after it, whatever the label is, unless both together
read as an event. -/
theorem readMember_label (isStatic : Bool) {name label : List Char} (hname : ':' ∉ name)
    (hlabel : label ≠ []) (hevent : isStatic = true ∨ name ≠ "event".toList) :
    readMember ((marked isStatic).2 :: name ++ ':' :: label)
      = ⟨(marked isStatic).1, some name, some label⟩ := by
  obtain ⟨c, label, rfl⟩ := List.exists_cons_of_ne_nil hlabel
  rw [readMember_colon isStatic hname hevent, readNamed, cutAt_append hname]

/-- A colon with nothing behind it gives no label. -/
theorem readMember_no_label (isStatic : Bool) {name : List Char} (hname : ':' ∉ name)
    (hevent : isStatic = true ∨ name ≠ "event".toList) :
    readMember ((marked isStatic).2 :: name ++ [':']) = ⟨(marked isStatic).1, some name, none⟩ := by
  rw [readMember_colon isStatic hname hevent, readNamed, cutAt_append hname]

end RefCheck.Reference
