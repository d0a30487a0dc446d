import RefCheck.Index.Resolve
import RefCheck.Proofs.Reference.Written

/-!
# The forms of a reference agree

A member of a class can be named from inside the class, from inside its module, or from anywhere: `#m`,
`~C#m` and `module:p~C#m` are three texts for one thing. The three are read by different rules, and their
scopes are found in different ways, so that they agree is a law of both together.

What a context adds to a reference is its module and its class, and nothing else. So a comment that moves
inside its class keeps its meaning, and a reference that names its module has one meaning everywhere.

The laws hold for any index, whatever its tables say; they do not ask that it is the index of the model.
-/

namespace RefCheck.Reference

open RefCheck.Text

variable {ix : Index} {m : Model}

/-! ## What a context adds -/

/-- A reference is what its scope and its member are; the text around them does not count. -/
private theorem resolve?_ofParts_congr {raw raw' : List Char} {path path' : Option (List String)}
    {type type' : Option (List Char)} {member : Member} {context other : Handle}
    (hscope : ix.scope? m (ofParts raw path type member) context
      = ix.scope? m (ofParts raw' path' type' member) other) :
    ix.resolve? m (ofParts raw path type member) context
      = ix.resolve? m (ofParts raw' path' type' member) other := by
  rw [Index.resolve?, Index.resolve?, hscope]
  rfl

theorem scope?_congr {r : Reference} {context other : Handle}
    (hmodule : m.moduleOf? context = m.moduleOf? other)
    (hcontainer : m.containerOf? context = m.containerOf? other) :
    ix.scope? m r context = ix.scope? m r other := by
  rw [Index.scope?, Index.scope?, hmodule, hcontainer]

theorem scope?_of_isAbsolute {r : Reference} (hr : r.isAbsolute = true) (context other : Handle) :
    ix.scope? m r context = ix.scope? m r other := by
  obtain ⟨path, hpath⟩ := Option.isSome_iff_exists.mp hr
  rw [Index.scope?, Index.scope?, hpath]

/-- Contexts in one module and one class give every text the same meaning. -/
theorem resolveText?_congr {context other : Handle} (text : String)
    (hmodule : m.moduleOf? context = m.moduleOf? other)
    (hcontainer : m.containerOf? context = m.containerOf? other) :
    ix.resolveText? m text context = ix.resolveText? m text other := by
  refine congrArg (Option.bind _) (funext fun r ↦ ?_)
  rw [Index.resolve?, Index.resolve?, scope?_congr hmodule hcontainer]

/-- A text that names its module has the same meaning in every context. -/
theorem resolveText?_of_isAbsolute {text : String} {r : Reference} (hread : parse? text = some r)
    (hr : r.isAbsolute = true) (context other : Handle) :
    ix.resolveText? m text context = ix.resolveText? m text other := by
  rw [Index.resolveText?, Index.resolveText?, hread, Option.bind_some, Option.bind_some,
    Index.resolve?, Index.resolve?, scope?_of_isAbsolute hr context other]

/-! ## Type and module -/

/-- What can be written as a type: it is not blank, and holds nothing that ends a type. -/
def IsTypeName (type : String) : Prop :=
  (∃ c ∈ type.toList, isBlank c = false) ∧ '#' ∉ type.toList ∧ '.' ∉ type.toList

/-- What starts as a member does and goes on after that. -/
def IsMember (suffix : String) : Prop :=
  ∃ c rest, suffix.toList = c :: rest ∧ (c = '#' ∨ c = '.') ∧ ∃ d ∈ rest, isBlank d = false

/-- The segments of a module's name hold nothing that ends a module. -/
def IsPlain (path : List String) : Prop :=
  ∀ segment ∈ path, '~' ∉ segment.toList ∧ '#' ∉ segment.toList

instance (path : List String) : Decidable (IsPlain path) :=
  inferInstanceAs (Decidable (∀ segment ∈ path, '~' ∉ segment.toList ∧ '#' ∉ segment.toList))

/-- The path of a module comes from cutting its name at slashes. -/
theorem isWritable_modulePath {r : Reflection} (hplain : IsPlain r.modulePath) :
    IsWritable r.modulePath := by
  intro segment hsegment
  refine ⟨?_, ?_, hplain segment hsegment⟩
  all_goals
    obtain ⟨s, hs, rfl⟩ := List.mem_map.mp hsegment
    obtain ⟨hne, hslash⟩ := mem_segments hs
  · exact fun hnil ↦ hne (String.ofList_eq_empty_iff.mp hnil)
  · rwa [String.toList_ofList]

private theorem trimEnd_type_ne_nil {type : String} (htype : ∃ c ∈ type.toList, isBlank c = false)
    (suffix : String) : trimEnd (type.toList ++ suffix.toList) ≠ [] := by
  obtain ⟨c, hc, hblank⟩ := htype
  exact trimEnd_ne_nil (List.mem_append_left _ hc) hblank

private theorem IsTypeName.inType {type : String} (htype : IsTypeName type) :
    ∀ c ∈ type.toList, inType c = true := by
  intro c hc
  rw [Reference.inType, Bool.and_eq_true, bne_iff_ne, bne_iff_ne]
  exact ⟨fun h ↦ htype.2.1 (h ▸ hc), fun h ↦ htype.2.2 (h ▸ hc)⟩

/-- With its module, a type and what follows it mean what they mean from inside the module. -/
theorem resolveText?_relative {context module : Handle} {type : String}
    (hmodule : m.moduleOf? context = some module) (hplain : IsPlain (m.get module).modulePath)
    (htype : ∃ c ∈ type.toList, isBlank c = false) (suffix : String) (other : Handle) :
    ix.resolveText? m ("~" ++ type ++ suffix) context
      = ix.resolveText? m (typeAddress (m.get module).modulePath type ++ suffix) other := by
  have hne := trimEnd_type_ne_nil htype suffix
  have hrelative := parse?_relative ("~" ++ type ++ suffix)
    (by rw [String.toList_append, String.toList_append]; rfl) hne
  have habsolute := parse?_absolute (typeAddress (m.get module).modulePath type ++ suffix)
    (by rw [String.toList_append, toList_typeAddress, List.append_assoc]; rfl)
    (isWritable_modulePath hplain) hne
  rw [Index.resolveText?, Index.resolveText?, hrelative, habsolute, Option.bind_some,
    Option.bind_some]
  refine resolve?_ofParts_congr ?_
  rw [Index.scope?, ofParts]
  dsimp only [Option.map_some]
  rw [hmodule]
  rfl

/-! ## Members -/

/-- From inside a class, a member means what it means after the name of the class. -/
theorem resolveText?_member {context module container : Handle} {suffix : String}
    (hmodule : m.moduleOf? context = some module)
    (hcontainer : m.containerOf? context = some container)
    (hexport : ix.export? (m.get module).modulePath (some (m.get container).name) = some container)
    (htype : IsTypeName (m.get container).name) (hsuffix : IsMember suffix) :
    ix.resolveText? m suffix context
      = ix.resolveText? m ("~" ++ (m.get container).name ++ suffix) context := by
  obtain ⟨c, rest, hchars, hc, d, hd, hblank⟩ := hsuffix
  have hrest : trimEnd rest ≠ [] := trimEnd_ne_nil hd hblank
  have hne := trimEnd_type_ne_nil htype.1 suffix
  -- the text after the tilde ends as the member does, so trimming takes the same from both
  have hend : trimEnd ((m.get container).name.toList ++ suffix.toList)
      = (m.get container).name.toList ++ c :: trimEnd rest := by
    have hkept := trimEnd_cons_of_ne_nil (c := c) hrest
    rw [hchars, trimEnd_append _ (by rw [hkept]; exact List.cons_ne_nil c _), hkept]
  have hstop : ¬Reference.inType c = true := by rcases hc with rfl | rfl <;> decide
  have hmember := parse?_member hchars hc hrest
  have hrelative := parse?_relative ("~" ++ (m.get container).name ++ suffix)
    (by rw [String.toList_append, String.toList_append]; rfl) hne
  rw [hend, List.takeWhile_append_of_pos htype.inType, List.dropWhile_append_of_pos htype.inType,
    List.takeWhile_cons_of_neg hstop, List.dropWhile_cons_of_neg hstop,
    List.append_nil] at hrelative
  rw [Index.resolveText?, Index.resolveText?, hmember, hrelative, Option.bind_some,
    Option.bind_some]
  refine resolve?_ofParts_congr ?_
  rw [Index.scope?, Index.scope?, ofParts, ofParts]
  dsimp only [Option.map_some, Option.map_none]
  rw [hmodule, hcontainer, Option.bind_some, String.ofList_toList, hexport]

/-! ## The law -/

/-- **The forms agree.** Inside a module, a type and what follows it mean what they mean with the module's
name from anywhere; inside a class that its module exports, a member means what it means with the names of
both. Contexts with the same module and class give every text the same meaning, and the meaning of a text
that names its module does not depend on its context at all. -/
theorem forms_agree (ix : Index) (m : Model) :
    (∀ context module : Handle, ∀ type suffix : String, ∀ other : Handle,
      m.moduleOf? context = some module → IsPlain (m.get module).modulePath →
      (∃ c ∈ type.toList, isBlank c = false) →
        ix.resolveText? m ("~" ++ type ++ suffix) context
          = ix.resolveText? m (typeAddress (m.get module).modulePath type ++ suffix) other) ∧
    (∀ context module container : Handle, ∀ suffix : String, ∀ other : Handle,
      m.moduleOf? context = some module → IsPlain (m.get module).modulePath →
      m.containerOf? context = some container →
      ix.export? (m.get module).modulePath (some (m.get container).name) = some container →
      IsTypeName (m.get container).name → IsMember suffix →
        ix.resolveText? m suffix context
            = ix.resolveText? m ("~" ++ (m.get container).name ++ suffix) context ∧
          ix.resolveText? m suffix context
            = ix.resolveText? m
                (typeAddress (m.get module).modulePath (m.get container).name ++ suffix) other) ∧
    (∀ text : String, ∀ context other : Handle, m.moduleOf? context = m.moduleOf? other →
      m.containerOf? context = m.containerOf? other →
        ix.resolveText? m text context = ix.resolveText? m text other) ∧
    (∀ text : String, ∀ r : Reference, ∀ context other : Handle, parse? text = some r →
      r.isAbsolute = true → ix.resolveText? m text context = ix.resolveText? m text other) := by
  refine ⟨?_, ?_, ?_, ?_⟩
  · intro context module type suffix other hmodule hplain htype
    exact resolveText?_relative hmodule hplain htype suffix other
  · intro context module container suffix other hmodule hplain hcontainer hexport htype hsuffix
    have hmember := resolveText?_member hmodule hcontainer hexport htype hsuffix
    exact ⟨hmember, hmember.trans (resolveText?_relative hmodule hplain htype.1 suffix other)⟩
  · exact fun text context other ↦ resolveText?_congr text
  · exact fun text r context other hread hr ↦ resolveText?_of_isAbsolute hread hr context other

/-- A method with a parameter, in a class of a module whose name has two segments. -/
def nested : Model where
  name := "p"
  roots := [0]
  reflections := #[
    { Reflection.free 1 "a/b" .module none [] false with children := [1] },
    { Reflection.free 2 "C" .classKind none [] false with children := [2], parent := some 0 },
    { Reflection.free 3 "m" .method none [] false with children := [3], parent := some 1 },
    { Reflection.free 4 "x" .parameter none [] false with parent := some 2 }]

/-- From the parameter and from the module, the method is found by each of its three names. -/
theorem resolveText?_nested :
    (Index.build nested).resolveText? nested "#m" 3 = some 2 ∧
      (Index.build nested).resolveText? nested "~C#m" 3 = some 2 ∧
      (Index.build nested).resolveText? nested "module:a/b~C#m" 0 = some 2 := by
  have hmember : (Index.build nested).resolveText? nested "#m" 3 = some 2 := by decide
  have hforms := (forms_agree (Index.build nested) nested).2.1 3 0 1 "#m" 0 (by decide)
    (by decide) (by decide) (by decide) ⟨⟨'C', by decide, by decide⟩, by decide, by decide⟩
    ⟨'#', ['m'], by decide, by decide, 'm', by decide, by decide⟩
  exact ⟨hmember, hforms.1.symm.trans hmember, hforms.2.symm.trans hmember⟩

end RefCheck.Reference
