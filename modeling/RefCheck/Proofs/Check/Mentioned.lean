import RefCheck.Proofs.Check.Clean

/-!
# Reading what a comment mentions

What a comment mentions is found by going over its parts, and this can fail: the name of an inline tag is
looked up among those that link, and an array or an object cannot be looked up. That is the only way in which
it fails. So there is one law for each reader that says when it comes to an end
(`BlockTag.exists_seeTargets_iff`, `Comment.exists_linkTargets_iff`), and one that says what it then has found
(`BlockTag.mem_seeTargets`, `Comment.mem_linkTargets`).
-/

namespace RefCheck

/-! ## Names that can be looked up -/

/-- The value can be looked up among names: it is neither an array nor an object. -/
def Value.IsName : Value → Prop
  | .arr _ | .obj _ => False
  | _ => True

/-- The name of the part can be looked up, if the part has one. -/
def Part.IsReadable (p : Part) : Prop := p.kind = .inlineTag → p.tag.IsName

theorem Value.IsTextOrNull.isName {v : Value} (h : v.IsTextOrNull) : v.IsName := by
  rcases h with rfl | ⟨s, rfl⟩
  · exact trivial
  · exact trivial

theorem isLinkTag_eq_ok_iff {v : Value} {b : Bool} :
    isLinkTag v = .ok b ↔ v.IsName ∧ (b = true ↔ ∃ name ∈ linkTags, v = .str name) := by
  cases v with
  | str s =>
    have hnames : (∃ name ∈ linkTags, Value.str s = .str name) ↔ linkTags.contains s = true := by
      simp
    rw [hnames, isLinkTag, Except.ok.injEq, Bool.eq_iff_iff]
    exact iff_comm.trans (and_iff_right trivial).symm
  | arr items => exact iff_of_false (fun h ↦ by cases h) fun h ↦ h.1
  | obj fields => exact iff_of_false (fun h ↦ by cases h) fun h ↦ h.1
  | null | bool | int | float => simp [isLinkTag, Value.IsName, eq_comm]

/-! ## Inline links -/

/-- **The target of a part** is found if its name can be looked up; there is one if the part links. -/
theorem Part.linkTarget?_eq_ok_iff {p : Part} {found : Option String} :
    p.linkTarget? = .ok found ↔
      p.IsReadable ∧ ∀ text, found = some text ↔ p.IsLink ∧ linkTarget p.text = text := by
  rw [Part.linkTarget?]
  by_cases hkind : p.kind = .inlineTag
  · rw [if_pos hkind, Fault.bind_eq_ok_iff, Part.IsReadable, Part.IsLink, imp_iff_right hkind]
    simp only [isLinkTag_eq_ok_iff, pure, Except.pure, Except.ok.injEq, and_iff_right hkind]
    constructor
    · rintro ⟨b, ⟨hname, hlinks⟩, rfl⟩
      refine ⟨hname, fun text ↦ ?_⟩
      rw [← hlinks]
      cases b <;> simp
    · rintro ⟨hname, hfound⟩
      refine ⟨found.isSome, ⟨hname, ?_⟩, ?_⟩
      · rw [Option.isSome_iff_exists]
        simp only [hfound]
        exact ⟨fun ⟨_, hlinks, _⟩ ↦ hlinks, fun hlinks ↦ ⟨_, hlinks, rfl⟩⟩
      · cases found with
        | none => rfl
        | some text => rw [← ((hfound text).mp rfl).2]; rfl
  · have hnone : ∀ text, ¬(p.IsLink ∧ linkTarget p.text = text) := fun text h ↦ hkind h.1.1
    have hread : p.IsReadable := fun h ↦ absurd h hkind
    rw [if_neg hkind, Except.ok.injEq, and_iff_right hread, eq_comm,
      Option.eq_none_iff_forall_ne_some]
    exact forall_congr' fun text ↦ (iff_false_right (hnone text)).symm

theorem Part.exists_linkTarget?_iff {p : Part} :
    (∃ found, p.linkTarget? = .ok found) ↔ p.IsReadable := by
  constructor
  · rintro ⟨found, hfound⟩
    exact (Part.linkTarget?_eq_ok_iff.mp hfound).1
  · intro hread
    rw [Part.linkTarget?]
    split
    · next hkind =>
      have hname := hread hkind
      cases htag : p.tag with
      | arr items => exact (htag ▸ hname : Value.IsName (.arr items)).elim
      | obj fields => exact (htag ▸ hname : Value.IsName (.obj fields)).elim
      | _ => exact ⟨_, rfl⟩
    · exact ⟨none, rfl⟩

theorem Comment.exists_linkTargets_iff {c : Comment} :
    (∃ texts, c.linkTargets = .ok texts) ↔ ∀ p ∈ c.parts, p.IsReadable := by
  simp only [← Part.exists_linkTarget?_iff]
  rw [← exists_mapM_eq_ok_iff]
  constructor
  · rintro ⟨texts, htexts⟩
    obtain ⟨found, hfound, -⟩ := Fault.bind_eq_ok_iff.mp htexts
    exact ⟨found, hfound⟩
  · rintro ⟨found, hfound⟩
    exact ⟨found.filterMap id, Fault.bind_eq_ok_iff.mpr ⟨found, hfound, rfl⟩⟩

theorem Comment.mem_linkTargets {c : Comment} {texts : List String}
    (h : c.linkTargets = .ok texts) {text : String} :
    text ∈ texts ↔ ∃ p ∈ c.parts, p.IsLink ∧ linkTarget p.text = text := by
  obtain ⟨found, hfound, hok⟩ := Fault.bind_eq_ok_iff.mp h
  cases hok
  rw [List.mem_filterMap]
  simp only [id, exists_eq_right]
  rw [mem_of_mapM_eq_ok hfound]
  refine exists_congr fun p ↦ and_congr_right fun hp ↦ ?_
  obtain ⟨one, hone⟩ := exists_mapM_eq_ok_iff.mp ⟨found, hfound⟩ p hp
  rw [hone, Except.ok.injEq]
  exact (Part.linkTarget?_eq_ok_iff.mp hone).2 text

/-! ## `@see` tags -/

theorem Part.exists_seeTargets_iff {p : Part} :
    (∃ texts, p.seeTargets = .ok texts) ↔ p.IsReadable := by
  rw [Part.seeTargets]
  cases hkind : p.kind with
  | text => exact iff_of_true ⟨_, rfl⟩ fun h ↦ by cases hkind.symm.trans h
  | code => exact iff_of_true ⟨_, rfl⟩ fun h ↦ by cases hkind.symm.trans h
  | inlineTag =>
    rw [← Part.exists_linkTarget?_iff]
    constructor
    · rintro ⟨texts, htexts⟩
      obtain ⟨found, hfound, -⟩ := Fault.bind_eq_ok_iff.mp htexts
      exact ⟨found, hfound⟩
    · rintro ⟨found, hfound⟩
      exact ⟨found.toList, Fault.bind_eq_ok_iff.mpr ⟨found, hfound, rfl⟩⟩

theorem Part.mem_seeTargets {p : Part} {texts : List String} (h : p.seeTargets = .ok texts)
    {text : String} : text ∈ texts ↔
      (p.kind = .text ∧ ∃ line ∈ lineTargets p.text.toList, String.ofList line = text) ∨
        (p.IsLink ∧ linkTarget p.text = text) := by
  have hlink : p.IsLink → p.kind = .inlineTag := And.left
  rw [Part.seeTargets] at h
  cases hkind : p.kind with
  | text =>
    rw [hkind] at h hlink
    cases h
    simp [mt hlink (by decide)]
  | code =>
    rw [hkind] at h hlink
    cases h
    simp [mt hlink (by decide)]
  | inlineTag =>
    rw [hkind] at h
    obtain ⟨found, hfound, hok⟩ := Fault.bind_eq_ok_iff.mp h
    cases hok
    rw [Option.mem_toList, (Part.linkTarget?_eq_ok_iff.mp hfound).2 text]
    simp

theorem BlockTag.exists_seeTargets_iff {t : BlockTag} :
    (∃ texts, t.seeTargets = .ok texts) ↔ ∀ p ∈ t.content, p.IsReadable := by
  simp only [← Part.exists_seeTargets_iff]
  rw [← exists_mapM_eq_ok_iff]
  constructor
  · rintro ⟨texts, htexts⟩
    obtain ⟨found, hfound, -⟩ := Fault.bind_eq_ok_iff.mp htexts
    exact ⟨found, hfound⟩
  · rintro ⟨found, hfound⟩
    exact ⟨found.flatten, Fault.bind_eq_ok_iff.mpr ⟨found, hfound, rfl⟩⟩

theorem BlockTag.mem_seeTargets {t : BlockTag} {texts : List String}
    (h : t.seeTargets = .ok texts) {text : String} : text ∈ texts ↔ t.Mentions text := by
  obtain ⟨found, hfound, hok⟩ := Fault.bind_eq_ok_iff.mp h
  cases hok
  simp only [List.mem_flatten, mem_of_mapM_eq_ok hfound, BlockTag.Mentions]
  constructor
  · rintro ⟨one, ⟨p, hp, hone⟩, htext⟩
    exact ⟨p, hp, (Part.mem_seeTargets hone).mp htext⟩
  · rintro ⟨p, hp, hmentions⟩
    obtain ⟨one, hone⟩ := exists_mapM_eq_ok_iff.mp ⟨found, hfound⟩ p hp
    exact ⟨one, ⟨p, hp, hone⟩, (Part.mem_seeTargets hone).mpr hmentions⟩

end RefCheck
