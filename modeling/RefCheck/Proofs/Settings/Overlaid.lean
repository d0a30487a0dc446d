import RefCheck.Settings.Overlay
import RefCheck.Settings.Sources

/-!
# What one source says below another

A *setting* is a field of a section. `Data.said? name field entries` is what entries say of it: the value of
the field in the mapping that the section is. Entries in which every section is a mapping, and each key comes
once, are *sectioned* (`Data.IsSectioned`).

Laying sectioned entries over others keeps them so, and of a setting the upper entries count if they say
anything of it: `Data.said?_overlayEntries`. Where both say a mapping the two are laid over one another once
more, so the law has a second case, in which a mapping comes out. No setting is read from one.
-/

namespace RefCheck.Yaml

namespace Scalar

/-- What scalars have in common that are the same key: a whole number, an instant, or all that they are. -/
def identity (s : Scalar) : Int ⊕ (Int × Nat) ⊕ Scalar :=
  match s with
  | moment m =>
    match m.offset with
    | some o => .inr (.inl (m.instant o, m.clock.micro))
    | none => .inr (.inr s)
  | s =>
    match s.whole? with
    | some n => .inl n
    | none => .inr (.inr s)

/-- Two scalars are the same key if they are the same thing, so this is an equivalence. -/
theorem sameKey_iff {a b : Scalar} : a.sameKey b = true ↔ a.identity = b.identity := by
  cases a with
  | moment m =>
    cases b with
    | moment n =>
      rw [sameKey, Moment.same, identity, identity]
      cases m.offset <;> cases n.offset <;> simp
    | float y => cases hm : m.offset <;> cases hy : y.whole? <;> simp [sameKey, identity, whole?, hm, hy]
    | null | bool | int | str | bytes | date =>
      cases hm : m.offset <;> simp [sameKey, identity, whole?, hm]
  | float x =>
    cases b with
    | moment n => cases hx : x.whole? <;> cases hn : n.offset <;> simp [sameKey, identity, whole?, hx, hn]
    | float y => cases hx : x.whole? <;> cases hy : y.whole? <;> simp [sameKey, identity, whole?, hx, hy]
    | null | bool | int | str | bytes | date =>
      cases hx : x.whole? <;> simp [sameKey, identity, whole?, hx]
  | null | bool | int | str | bytes | date =>
    cases b with
    | moment n => cases hn : n.offset <;> simp [sameKey, identity, whole?, hn]
    | float y => cases hy : y.whole? <;> simp [sameKey, identity, whole?, hy]
    | null | bool | int | str | bytes | date => simp [sameKey, identity, whole?]

theorem sameKey_refl (a : Scalar) : a.sameKey a = true := sameKey_iff.mpr rfl

theorem sameKey_symm {a b : Scalar} (h : a.sameKey b = true) : b.sameKey a = true :=
  sameKey_iff.mpr (sameKey_iff.mp h).symm

theorem sameKey_trans {a b c : Scalar} (hab : a.sameKey b = true) (hbc : b.sameKey c = true) :
    a.sameKey c = true :=
  sameKey_iff.mpr ((sameKey_iff.mp hab).trans (sameKey_iff.mp hbc))

end Scalar

namespace Data

variable {entries base upper : List (Scalar × Data)} {key : Scalar} {s : String} {d value : Data}

/-! ## Keys that come once -/

/-- No two entries have the same key. -/
def EntriesOnce (entries : List (Scalar × Data)) : Prop :=
  (entries.map Prod.fst).Pairwise fun a b ↦ a.sameKey b = false

/-- If the data is a mapping, no two of its entries have the same key. -/
def KeysOnce : Data → Prop
  | map entries => EntriesOnce entries
  | known _ d => d.KeysOnce
  | _ => True

@[simp] theorem lookup_nil {α : Type} : lookup key ([] : List (Scalar × α)) = none := rfl

/-- A key finds what every key finds that is the same. -/
theorem lookup_congr {key' : Scalar} (h : key.sameKey key' = true) : lookup key entries = lookup key' entries := by
  induction entries with
  | nil => rfl
  | cons e entries ih =>
    obtain ⟨k, v⟩ := e
    have hiff : k.sameKey key = k.sameKey key' := by
      rw [Bool.eq_iff_iff]
      exact ⟨fun hk ↦ Scalar.sameKey_trans hk h, fun hk ↦ Scalar.sameKey_trans hk (Scalar.sameKey_symm h)⟩
    rw [lookup, lookup, hiff, ih]

/-- What is looked up among entries stands in one of them. -/
theorem exists_mem_of_lookup (h : lookup key entries = some d) : ∃ k, (k, d) ∈ entries := by
  induction entries with
  | nil => cases h
  | cons e entries ih =>
    obtain ⟨k, v⟩ := e
    rw [lookup] at h
    split at h
    · cases h
      exact ⟨k, List.mem_cons_self⟩
    · obtain ⟨k', hmem⟩ := ih h
      exact ⟨k', List.mem_cons_of_mem _ hmem⟩

theorem lookup_eq_none_of_forall (h : ∀ k ∈ entries.map Prod.fst, k.sameKey key = false) :
    lookup key entries = none := by
  induction entries with
  | nil => rfl
  | cons e entries ih =>
    obtain ⟨hk, hrest⟩ := List.forall_mem_cons.mp h
    rw [lookup, hk, ih hrest]
    rfl

/-- A value that is put under a key is found there, and all others stay. -/
theorem lookup_put {key' : Scalar} : lookup key' (put key value entries)
    = if key.sameKey key' then some value else lookup key' entries := by
  induction entries with
  | nil => rfl
  | cons e entries ih =>
    obtain ⟨k, v⟩ := e
    rw [put]
    by_cases hsame : k.sameKey key = true
    · rw [if_pos hsame, lookup, lookup]
      by_cases hk : k.sameKey key' = true
      · rw [if_pos hk, if_pos (Scalar.sameKey_trans (Scalar.sameKey_symm hsame) hk)]
      · rw [if_neg hk, if_neg fun hkey ↦ hk (Scalar.sameKey_trans hsame hkey)]
        exact (if_neg hk).symm
    · rw [if_neg hsame, lookup, lookup, ih]
      by_cases hk : k.sameKey key' = true
      · rw [if_pos hk, if_pos hk, if_neg fun hkey ↦ hsame (Scalar.sameKey_trans hk (Scalar.sameKey_symm hkey))]
      · rw [if_neg hk, if_neg hk]

theorem mem_put {e : Scalar × Data} (h : e ∈ put key value entries) :
    e.2 = value ∨ e ∈ entries := by
  induction entries with
  | nil => exact .inl (congrArg Prod.snd (List.mem_singleton.mp h))
  | cons first entries ih =>
    rw [put] at h
    split at h
    · rcases List.mem_cons.mp h with rfl | h
      · exact .inl rfl
      · exact .inr (List.mem_cons_of_mem _ h)
    · rcases List.mem_cons.mp h with rfl | h
      · exact .inr List.mem_cons_self
      · exact (ih h).imp_right (List.mem_cons_of_mem _)

/-- Putting a value changes no key; one that is not there comes last. -/
theorem keys_put : (put key value entries).map Prod.fst
    = if (entries.map Prod.fst).any (Scalar.sameKey · key) then entries.map Prod.fst
      else entries.map Prod.fst ++ [key] := by
  induction entries with
  | nil => rfl
  | cons e entries ih =>
    obtain ⟨k, v⟩ := e
    rw [put]
    by_cases hsame : k.sameKey key = true
    · simp [hsame]
    · rw [if_neg hsame, List.map_cons, ih]
      simp only [List.map_cons, List.any_cons, Bool.not_eq_true _ ▸ hsame, Bool.false_or]
      split <;> rfl

theorem EntriesOnce.put (h : EntriesOnce entries) : EntriesOnce (put key value entries) := by
  rw [EntriesOnce, keys_put]
  split
  · exact h
  · next hnew =>
    refine List.pairwise_append.mpr ⟨h, List.pairwise_singleton _ _, fun a ha b hb ↦ ?_⟩
    rw [List.mem_singleton.mp hb]
    simpa using fun hsame : a.sameKey key = true ↦ hnew (List.any_eq_true.mpr ⟨a, ha, hsame⟩)

theorem keys_entriesWithName (name : String) (meant : Data) :
    (entriesWithName name meant entries).map Prod.fst = entries.map Prod.fst := by
  induction entries with
  | nil => rfl
  | cons e entries ih => rw [entriesWithName, List.map_cons, List.map_cons, ih]

theorem lookup_entriesWithName (name : String) (meant : Data) :
    lookup key (entriesWithName name meant entries) = (lookup key entries).map (withName name meant) := by
  induction entries with
  | nil => rfl
  | cons e entries ih =>
    rw [entriesWithName, lookup, lookup, ih]
    split <;> rfl

theorem KeysOnce.withName {name : String} {meant : Data} (hmeant : meant.KeysOnce) (d : Data)
    (h : d.KeysOnce) : (withName name meant d).KeysOnce := by
  induction d using KeysOnce.induct with
  | case1 entries =>
    rw [Data.withName, KeysOnce, EntriesOnce, keys_entriesWithName]
    exact h
  | case2 n d ih =>
    rw [Data.withName, KeysOnce]
    split
    · exact h
    · exact ih h
  | case3 d hmap hknown =>
    cases d with
    | map entries => exact (hmap entries rfl).elim
    | known n d => exact (hknown n d rfl).elim
    | again n =>
      rw [Data.withName]
      split
      · exact hmeant
      · trivial
    | scalar | list | pair | set => trivial

/-- A mapping that is opened was one before, or stands inside itself. -/
theorem opened_eq_map_iff : d.opened = map entries ↔ d = map entries ∨
    ∃ name own, d = known name (map own) ∧ entries = entriesWithName name (known name (map own)) own := by
  cases d with
  | known name d =>
    cases d with
    | map own =>
      have hopened : (known name (map own)).opened
          = map (entriesWithName name (known name (map own)) own) := by rw [opened, withName]
      rw [hopened]
      constructor
      · rintro ⟨⟩
        exact .inr ⟨name, own, rfl, rfl⟩
      · rintro (h | ⟨n, o, h, rfl⟩)
        · cases h
        · cases h
          rfl
    | again n =>
      have hopened : (known name (again n)).opened
          = if n = name then known name (again n) else again n := by rw [opened, withName]
      rw [hopened]
      split <;> simp
    | scalar | list | pair | set | known => simp [opened, withName]
  | scalar | list | map | pair | set | again => simp [opened]

/-- The data is a mapping. -/
def isMapping (d : Data) : Bool :=
  match d.opened with
  | map _ => true
  | _ => false

theorem isMapping_iff : d.isMapping = true ↔ ∃ entries, d.opened = map entries := by
  unfold isMapping
  split
  · next entries h => exact iff_of_true rfl ⟨entries, h⟩
  · next h => exact iff_of_false Bool.false_ne_true fun ⟨entries, hd⟩ ↦ h entries hd

theorem KeysOnce.entriesOnce (h : d.KeysOnce) (hd : d.opened = map entries) : EntriesOnce entries := by
  rcases opened_eq_map_iff.mp hd with rfl | ⟨name, own, rfl, rfl⟩
  · exact h
  · rw [EntriesOnce, keys_entriesWithName]
    exact h

/-! ## Laying data over data -/

/-- Data laid over other data is that data, or a mapping. -/
theorem overlayBy_eq_or (fill : Data → Data) (base d : Data) :
    overlayBy fill base d = fill d ∨ ∃ entries, overlayBy fill base d = map entries := by
  unfold overlayBy
  split
  · split
    · exact .inr ⟨_, rfl⟩
    · exact .inl rfl
  · split
    · exact .inr ⟨_, rfl⟩
    · exact .inl rfl
  · exact .inl rfl

theorem EntriesOnce.overlayEntriesBy {fill : Data → Data} (h : EntriesOnce base) :
    EntriesOnce (overlayEntriesBy fill base upper) := by
  induction upper generalizing base with
  | nil =>
    rw [Data.overlayEntriesBy]
    exact h
  | cons e upper ih =>
    rw [Data.overlayEntriesBy]
    exact ih h.put

/-- What is found under a key once entries are laid over others. -/
theorem lookup_overlayEntriesBy (fill : Data → Data) (hupper : EntriesOnce upper) :
    lookup key (overlayEntriesBy fill base upper)
      = match lookup key upper, lookup key base with
        | none, own => own
        | some v, some own => some (overlayBy fill own v)
        | some v, none => some (fill v) := by
  induction upper generalizing base with
  | nil => rw [overlayEntriesBy, lookup_nil]
  | cons e upper ih =>
    obtain ⟨k, v⟩ := e
    obtain ⟨hfirst, hrest⟩ := List.pairwise_cons.mp hupper
    rw [overlayEntriesBy, ih hrest, lookup_put, lookup]
    -- no later key is the same, so what is put under this one stays
    by_cases hk : k.sameKey key = true
    · have hnone : lookup key upper = none := by
        refine lookup_eq_none_of_forall fun k' hk' ↦ Bool.eq_false_iff.mpr fun hsame ↦ ?_
        exact Bool.false_ne_true ((hfirst k' hk').symm.trans
          (Scalar.sameKey_trans hk (Scalar.sameKey_symm hsame)))
      rw [hnone, if_pos hk, if_pos hk, lookup_congr hk]
      cases lookup key base <;> rfl
    · rw [if_neg hk, if_neg hk]

/-- What is left of a value once another one is laid over it: the upper one if there is one, or a mapping if
that is laid over a mapping. -/
def LaidOver (lower upper both : Option Data) : Prop :=
  match upper with
  | none => both = lower
  | some v => both = some v ∨ ∃ entries, both = some (map entries)

theorem laidOver_of_lookup (fill : Data → Data) (hupper : EntriesOnce upper) :
    LaidOver (lookup (.str s) base) ((lookup (.str s) upper).map fill)
      (lookup (.str s) (overlayEntriesBy fill base upper)) := by
  rw [lookup_overlayEntriesBy fill hupper]
  cases lookup (.str s) upper with
  | none => rfl
  | some v =>
    cases lookup (.str s) base with
    | none => exact .inl rfl
    | some own =>
      exact (overlayBy_eq_or fill own v).imp (congrArg some) fun ⟨entries, h⟩ ↦ ⟨entries, congrArg some h⟩

/-! ## Sections -/

/-- What entries say of a setting. -/
def said? (name field : String) (entries : List (Scalar × Data)) : Option Data :=
  (lookup (.str name) entries).bind fun d ↦ d.opened.get? field

/-- Each key comes once, and what stands under one of these names is a mapping in which each key comes once.
-/
structure IsSectioned (names : List String) (entries : List (Scalar × Data)) : Prop where
  once : EntriesOnce entries
  sections : ∀ name ∈ names, ∀ d, lookup (.str name) entries = some d →
    ∃ fields, d.opened = map fields ∧ EntriesOnce fields

/-- Mappings laid over one another give a mapping, in which the upper one counts. -/
theorem overlay_of_opened {own v : Data} {lower fields : List (Scalar × Data)}
    (hown : own.opened = map lower) (hv : v.opened = map fields) (hfields : EntriesOnce fields)
    (hlower : EntriesOnce lower) :
    ∃ both, overlayBy id own v = map both ∧ EntriesOnce both ∧
      ∀ field, LaidOver (lookup (.str field) lower) (lookup (.str field) fields)
        (lookup (.str field) both) := by
  -- a mapping with a name may stand inside itself, and then its values are filled in where it is laid over
  rcases opened_eq_map_iff.mp hv with rfl | ⟨name, entries, rfl, rfl⟩
  · refine ⟨overlayEntriesBy id lower fields, ?_, hlower.overlayEntriesBy, fun field ↦ ?_⟩
    · rw [overlayBy, hown]
    · simpa using laidOver_of_lookup id hfields
  · refine ⟨overlayEntriesBy (fun d ↦ withName name (known name (map entries)) d) lower entries, ?_,
      hlower.overlayEntriesBy, fun field ↦ ?_⟩
    · rw [overlayBy, hown]
      rfl
    · rw [lookup_entriesWithName]
      refine laidOver_of_lookup _ ?_
      rwa [EntriesOnce, keys_entriesWithName] at hfields

theorem IsSectioned.overlayEntries {names : List String} (hbase : IsSectioned names base)
    (hupper : IsSectioned names upper) : IsSectioned names (overlayEntries base upper) where
  once := hbase.once.overlayEntriesBy
  sections := by
    intro name hname d hd
    rw [Data.overlayEntries, lookup_overlayEntriesBy id hupper.once] at hd
    cases hv : lookup (.str name) upper with
    | none =>
      rw [hv] at hd
      exact hbase.sections name hname d hd
    | some v =>
      obtain ⟨fields, hopened, hfields⟩ := hupper.sections name hname v hv
      cases hown : lookup (.str name) base with
      | none =>
        rw [hv, hown] at hd
        cases hd
        exact ⟨fields, hopened, hfields⟩
      | some own =>
        obtain ⟨lower, hlower, honce⟩ := hbase.sections name hname own hown
        obtain ⟨both, hboth, hboth_once, -⟩ := overlay_of_opened hlower hopened hfields honce
        rw [hv, hown] at hd
        cases hd
        exact ⟨both, by rw [hboth]; rfl, hboth_once⟩

/-- **Of a setting the upper entries count** if they say anything of it. -/
theorem said?_overlayEntries {names : List String} (hbase : IsSectioned names base)
    (hupper : IsSectioned names upper) {name : String} (hname : name ∈ names) (field : String) :
    LaidOver (said? name field base) (said? name field upper)
      (said? name field (overlayEntries base upper)) := by
  rw [said?, said?, said?, Data.overlayEntries, lookup_overlayEntriesBy id hupper.once]
  cases hv : lookup (.str name) upper with
  | none => rfl
  | some v =>
    obtain ⟨fields, hopened, hfields⟩ := hupper.sections name hname v hv
    cases hown : lookup (.str name) base with
    | none =>
      cases hsaid : v.opened.get? field with
      | none => simp [LaidOver, hsaid]
      | some w => simp [LaidOver, hsaid]
    | some own =>
      obtain ⟨lower, hlower, honce⟩ := hbase.sections name hname own hown
      obtain ⟨both, hboth, -, hlaid⟩ := overlay_of_opened hlower hopened hfields honce
      simp only [Option.bind_some, hboth, hlower, hopened]
      exact hlaid field

end Data

end RefCheck.Yaml
