import RefCheck.Proofs.Settings.Overlaid

/-!
# Mappings along paths

In nested mappings a path of keys leads to one value, or to none. What stands at a path once nested mappings are
laid over others is decided by what stands in both of them along the path, by one rule: `Data.FollowsRule`. It holds
of every path, whatever stands in place of a mapping on either side (`Data.followsRule_overlay`).

Laying data over itself changes nothing, and neither does laying the same data over something once more: all that
the upper data says is there already (`Data.overlayEntries_eq_self`).
-/

namespace RefCheck.Yaml

namespace Data

variable {own entries base upper : List (Scalar × Data)} {key : Scalar} {path : List Scalar} {d v w : Data}

/-! ## Nested mappings -/

/-- Mappings that hold others down to data of other sorts: in each of them no key comes twice, and none goes on
without end. -/
inductive IsNested : Data → Prop
  /-- What is no mapping is not looked into. -/
  | plain {d : Data} (h : d.isMapping = false) : IsNested d
  /-- A mapping. -/
  | mapping {entries : List (Scalar × Data)} (once : EntriesOnce entries)
      (inner : ∀ e ∈ entries, IsNested e.2) : IsNested (map entries)

theorem isNested_map_iff : (map entries).IsNested ↔ EntriesOnce entries ∧ ∀ e ∈ entries, e.2.IsNested := by
  constructor
  · rintro (h | ⟨once, inner⟩)
    · cases h
    · exact ⟨once, inner⟩
  · exact fun h ↦ .mapping h.1 h.2

theorem IsNested.of_lookup (h : (map entries).IsNested) (hv : lookup key entries = some v) : v.IsNested := by
  obtain ⟨k, hmem⟩ := exists_mem_of_lookup hv
  exact (isNested_map_iff.mp h).2 (k, v) hmem

/-- Nested mappings have no names. -/
theorem IsNested.exists_entries (h : d.IsNested) (hd : d.isMapping = true) : ∃ entries, d = map entries := by
  cases h with
  | plain hplain => exact absurd hd (Bool.eq_false_iff.mp hplain)
  | mapping once inner => exact ⟨_, rfl⟩

/-! ## Laying data over data -/

theorem overlay_map : overlay (map own) (map entries) = map (overlayEntries own entries) := rfl

/-- What is no mapping counts in place of all that is below. -/
theorem overlay_of_upper (hv : v.isMapping = false) : overlay w v = v := by
  unfold overlay overlayBy
  split
  · cases hv
  · next name es =>
    have hmap : (known name (map es)).isMapping = true :=
      isMapping_iff.mpr ⟨_, opened_eq_map_iff.mpr (.inr ⟨name, es, rfl, rfl⟩)⟩
    exact absurd hmap (Bool.eq_false_iff.mp hv)
  · rfl

/-- A mapping counts in place of what is no mapping. -/
theorem overlay_of_base (hw : w.isMapping = false) (hv : v.isMapping = true → ∃ entries, v = map entries) :
    overlay w v = v := by
  by_cases hmap : v.isMapping = true
  · obtain ⟨entries, rfl⟩ := hv hmap
    rw [overlay, overlayBy]
    split
    · next own hown => exact absurd (isMapping_iff.mpr ⟨own, hown⟩) (Bool.eq_false_iff.mp hw)
    · rfl
  · exact overlay_of_upper (Bool.eq_false_iff.mpr hmap)

theorem overlayEntries_nil : overlayEntries base [] = base := by rw [overlayEntries, overlayEntriesBy]

/-- An entry is laid over the one that is there under its key. -/
theorem overlayEntries_cons : overlayEntries base ((key, v) :: upper)
    = overlayEntries (put key ((lookup key base).elim v (overlay · v)) base) upper := by
  rw [overlayEntries, overlayEntriesBy]
  cases lookup key base <;> rfl

theorem lookup_overlayEntries (hupper : EntriesOnce upper) : lookup key (overlayEntries base upper)
    = match lookup key upper, lookup key base with
      | none, own => own
      | some v, some own => some (overlay own v)
      | some v, none => some v :=
  lookup_overlayEntriesBy id hupper

/-! ## Values at paths -/

/-- The value at a path of keys. -/
def at? (d : Data) : List Scalar → Option Data
  | [] => some d
  | key :: path =>
    match d with
    | map entries => (lookup key entries).bind fun v ↦ v.at? path
    | _ => none

/-- There is a mapping at a path. -/
def MapsAt (d : Data) (path : List Scalar) : Prop := ∃ v, d.at? path = some v ∧ v.isMapping = true

@[simp] theorem at?_nil : d.at? [] = some d := by rw [at?]

theorem at?_cons : (map entries).at? (key :: path) = (lookup key entries).bind fun v ↦ v.at? path := by
  rw [at?]

theorem at?_singleton : (map entries).at? [key] = lookup key entries := by
  simp only [at?_cons, at?_nil]
  exact Option.bind_fun_some _

theorem at?_cons_eq_some_iff : d.at? (key :: path) = some v ↔
    ∃ entries w, d = map entries ∧ lookup key entries = some w ∧ w.at? path = some v := by
  cases d with
  | map entries => simp [at?_cons, Option.bind_eq_some_iff]
  | scalar | list | pair | set | known | again => simp [at?]

/-- Before what stands at a path there are mappings only. -/
theorem mapsAt_of_start (h : d.at? path = some v) {start : List Scalar} (hstart : start <+: path)
    (hne : start ≠ path) : d.MapsAt start := by
  induction path generalizing d start with
  | nil => exact absurd (List.prefix_nil.mp hstart) hne
  | cons key path ih =>
    obtain ⟨entries, w, rfl, hw, hv⟩ := at?_cons_eq_some_iff.mp h
    rcases List.prefix_cons_iff.mp hstart with rfl | ⟨rest, rfl, hrest⟩
    · exact ⟨_, at?_nil, rfl⟩
    · obtain ⟨u, hu, hmapping⟩ := ih hv hrest fun heq ↦ hne (congrArg _ heq)
      exact ⟨u, at?_cons_eq_some_iff.mpr ⟨entries, w, rfl, hw, hu⟩, hmapping⟩

theorem MapsAt.of_start (h : d.MapsAt path) {start : List Scalar} (hstart : start <+: path) :
    d.MapsAt start := by
  by_cases hne : start = path
  · rwa [hne]
  · obtain ⟨v, hv, -⟩ := h
    exact mapsAt_of_start hv hstart hne

/-- All of the path that leads somewhere above leads to mappings, above and below. -/
def MeetMappings (base upper : Data) (path : List Scalar) : Prop :=
  ∀ start, start <+: path → start ≠ path → upper.at? start ≠ none → upper.MapsAt start ∧ base.MapsAt start

/-- What stands at a path, by what stood there in both. -/
structure FollowsRule (base upper both : Data) (path : List Scalar) : Prop where
  /-- What is no mapping counts if it is above. -/
  plain : ∀ v, upper.at? path = some v → v.isMapping = false → both.at? path = some v
  /-- A mapping that is above none counts as it is. -/
  added : ∀ v, upper.at? path = some v → v.isMapping = true →
    (¬base.MapsAt path ∨ ∃ start, start <+: path ∧ start ≠ path ∧ ¬base.MapsAt start) →
    both.at? path = some v
  /-- Of two mappings one is laid over the other. -/
  merged : ∀ v, upper.at? path = some v → v.isMapping = true →
    ∀ w, base.at? path = some w → w.isMapping = true → both.at? path = some (overlay w v)
  /-- What is below nothing stays, as long as nothing has taken the place of a mapping on the way. -/
  kept : upper.at? path = none → MeetMappings base upper path → both.at? path = base.at? path
  /-- And otherwise there is nothing. -/
  absent : upper.at? path = none → ¬MeetMappings base upper path → both.at? path = none

/-- Where the upper value has taken the place of what is below, on the way or at the path itself, it is all that
counts. -/
theorem FollowsRule.of_replaced {base upper both : Data} (hboth : both.at? path = upper.at? path)
    (hmaps : ¬(upper.MapsAt path ∧ base.MapsAt path))
    (hmeet : upper.at? path = none → ¬MeetMappings base upper path) :
    FollowsRule base upper both path where
  plain _ hv _ := hboth.trans hv
  added _ hv _ _ := hboth.trans hv
  merged v hv hmap w hw hmap' := absurd ⟨⟨v, hv, hmap⟩, w, hw, hmap'⟩ hmaps
  kept hnone h := absurd h (hmeet hnone)
  absent hnone _ := hboth.trans hnone

/-- What meets below a key meets along the whole path. -/
theorem meetMappings_cons_iff (hw : lookup key own = some w) (hv : lookup key entries = some v) :
    MeetMappings (map own) (map entries) (key :: path) ↔ MeetMappings w v path := by
  have hown : ∀ start, (map own).at? (key :: start) = w.at? start := fun start ↦ by rw [at?_cons, hw]; rfl
  have hentries : ∀ start, (map entries).at? (key :: start) = v.at? start := fun start ↦ by
    rw [at?_cons, hv]
    rfl
  constructor
  · intro h start hstart hne hat
    have hwhole := h (key :: start) (List.cons_prefix_cons.mpr ⟨rfl, hstart⟩)
      (fun heq ↦ hne (List.cons.inj heq).2) (by rwa [hentries])
    rwa [MapsAt, MapsAt, hown, hentries] at hwhole
  · intro h start hstart hne hat
    rcases List.prefix_cons_iff.mp hstart with rfl | ⟨rest, rfl, hrest⟩
    · exact ⟨⟨_, at?_nil, rfl⟩, _, at?_nil, rfl⟩
    · rw [MapsAt, MapsAt, hown, hentries]
      exact h rest hrest (fun heq ↦ hne (congrArg _ heq)) (by rwa [hentries] at hat)

/-- Below a key that leads somewhere above, one is laid over the other if both are mappings. Otherwise the upper
one has taken the place of the lower one. -/
theorem at?_overlay_of_lookup (hbase : (map own).IsNested) (hupper : (map entries).IsNested)
    (hv : lookup key entries = some v) :
    (∃ own' entries', lookup key own = some (map own') ∧ v = map entries' ∧
        ∀ path, (overlay (map own) (map entries)).at? (key :: path)
          = (overlay (map own') (map entries')).at? path) ∨
      (¬((map entries).MapsAt [key] ∧ (map own).MapsAt [key]) ∧
        ∀ path, (overlay (map own) (map entries)).at? (key :: path) = v.at? path) := by
  have hlook : lookup key (overlayEntries own entries) = _ := lookup_overlayEntries (isNested_map_iff.mp hupper).1
  rw [hv] at hlook
  by_cases hmap : ∃ own' entries', lookup key own = some (map own') ∧ v = map entries'
  · obtain ⟨own', entries', hw, rfl⟩ := hmap
    refine .inl ⟨own', entries', hw, rfl, fun path ↦ ?_⟩
    rw [overlay_map, at?_cons, hlook, hw]
    rfl
  · -- a value that both have as a mapping would have entries on either side
    have hreplaced : ∀ w, lookup key own = some w → ¬(v.isMapping = true ∧ w.isMapping = true) := by
      rintro w hw ⟨hvm, hwm⟩
      obtain ⟨entries', rfl⟩ := (hupper.of_lookup hv).exists_entries hvm
      obtain ⟨own', rfl⟩ := (hbase.of_lookup hw).exists_entries hwm
      exact hmap ⟨own', entries', hw, rfl⟩
    refine .inr ⟨?_, fun path ↦ ?_⟩
    · rintro ⟨⟨u, hu, hum⟩, w, hw, hwm⟩
      rw [at?_singleton] at hu hw
      cases hv.symm.trans hu
      exact hreplaced w hw ⟨hum, hwm⟩
    · rw [overlay_map, at?_cons, hlook]
      cases hw : lookup key own with
      | none => rfl
      | some w =>
        by_cases hvm : v.isMapping = true
        · have hwm : w.isMapping = false := Bool.eq_false_iff.mpr fun hwm ↦ hreplaced w hw ⟨hvm, hwm⟩
          rw [Option.bind_some, overlay_of_base hwm (hupper.of_lookup hv).exists_entries]
        · rw [Option.bind_some, overlay_of_upper (Bool.eq_false_iff.mpr hvm)]

/-- **Every path is decided by the rule.** -/
theorem followsRule_overlay (hbase : (map own).IsNested) (hupper : (map entries).IsNested)
    (path : List Scalar) : FollowsRule (map own) (map entries) (overlay (map own) (map entries)) path := by
  induction path generalizing own entries with
  | nil =>
    have hnone : (map entries).at? [] ≠ none := by simp
    refine ⟨?_, ?_, ?_, fun h _ ↦ absurd h hnone, fun h _ ↦ absurd h hnone⟩
    · rintro v ⟨⟩ hv
      cases hv
    · rintro v ⟨⟩ - (hmaps | ⟨start, hstart, hne, -⟩)
      · exact absurd ⟨_, at?_nil, rfl⟩ hmaps
      · exact absurd (List.prefix_nil.mp hstart) hne
    · rintro v ⟨⟩ - w ⟨⟩ -
      exact at?_nil
  | cons key path ih =>
    have hlook : lookup key (overlayEntries own entries) = _ := lookup_overlayEntries (isNested_map_iff.mp hupper).1
    cases hv : lookup key entries with
    | none =>
      -- nothing above leads on, so all of the lower mapping stays there
      have hnone : ∀ rest, (map entries).at? (key :: rest) = none := fun rest ↦ by rw [at?_cons, hv]; rfl
      have hmeet : MeetMappings (map own) (map entries) (key :: path) := by
        intro start hstart hne hat
        rcases List.prefix_cons_iff.mp hstart with rfl | ⟨rest, rfl, -⟩
        · exact ⟨⟨_, at?_nil, rfl⟩, _, at?_nil, rfl⟩
        · exact absurd (hnone rest) hat
      rw [hv] at hlook
      refine ⟨?_, ?_, ?_, fun _ _ ↦ ?_, fun _ h ↦ absurd hmeet h⟩
      · intro v hat
        cases (hnone path).symm.trans hat
      · intro v hat
        cases (hnone path).symm.trans hat
      · intro v hat
        cases (hnone path).symm.trans hat
      · rw [overlay_map, at?_cons, hlook, at?_cons]
    | some v =>
      have hupperAt : ∀ rest, (map entries).at? (key :: rest) = v.at? rest := fun rest ↦ by
        rw [at?_cons, hv]
        rfl
      rcases at?_overlay_of_lookup hbase hupper hv with ⟨own', entries', hw, rfl, hat⟩ | ⟨hmaps, hat⟩
      · have hbaseAt : ∀ rest, (map own).at? (key :: rest) = (map own').at? rest := fun rest ↦ by
          rw [at?_cons, hw]
          rfl
        have hrule := ih (hbase.of_lookup hw) (hupper.of_lookup hv)
        have hmeet : MeetMappings (map own) (map entries) (key :: path) ↔ _ := meetMappings_cons_iff hw hv
        refine ⟨?_, ?_, ?_, ?_, ?_⟩ <;> rw [hupperAt, hat]
        · exact hrule.plain
        · intro u hu hum hmaps
          refine hrule.added u hu hum (.inl fun ⟨x, hx, hxm⟩ ↦ ?_)
          have hmap : (map own).MapsAt (key :: path) := ⟨x, (hbaseAt path).trans hx, hxm⟩
          rcases hmaps with hmaps | ⟨start, hstart, -, hmaps⟩
          · exact hmaps hmap
          · exact hmaps (hmap.of_start hstart)
        · rw [hbaseAt]
          exact hrule.merged
        · rw [hbaseAt, hmeet]
          exact hrule.kept
        · rw [hmeet]
          exact hrule.absent
      · have hstart : [key] <+: key :: path := List.cons_prefix_cons.mpr ⟨rfl, List.nil_prefix⟩
        refine .of_replaced ((hat path).trans (hupperAt path).symm) ?_ fun hnone hmeet ↦ ?_
        · exact fun h ↦ hmaps ⟨h.1.of_start hstart, h.2.of_start hstart⟩
        · refine hmaps (hmeet [key] hstart ?_ ?_)
          · rintro ⟨⟩
            cases (hupperAt []).symm.trans hnone
          · rw [at?_singleton, hv]
            exact Option.some_ne_none v

/-! ## Laying the same data over it -/

theorem lookup_of_mem (honce : EntriesOnce entries) {e : Scalar × Data} (he : e ∈ entries) :
    lookup e.1 entries = some e.2 := by
  induction entries with
  | nil => cases he
  | cons first entries ih =>
    obtain ⟨hfirst, hrest⟩ := List.pairwise_cons.mp honce
    rw [lookup]
    rcases List.mem_cons.mp he with rfl | he
    · rw [if_pos (Scalar.sameKey_refl _)]
    · rw [hfirst e.1 (List.mem_map_of_mem he), ih hrest he]
      rfl

/-- To put what is there changes nothing. -/
theorem put_of_lookup (h : lookup key entries = some v) : put key v entries = entries := by
  induction entries with
  | nil => cases h
  | cons e entries ih =>
    obtain ⟨k, w⟩ := e
    rw [lookup] at h
    rw [put]
    by_cases hk : k.sameKey key = true
    · rw [if_pos hk] at h ⊢
      rw [Option.some.inj h]
    · rw [if_neg hk] at h ⊢
      rw [ih h]

/-- What is put under a new key comes last. -/
theorem put_of_new (h : ∀ k ∈ entries.map Prod.fst, k.sameKey key = false) :
    put key v entries = entries ++ [(key, v)] := by
  induction entries with
  | nil => rfl
  | cons e entries ih =>
    obtain ⟨hk, hrest⟩ := List.forall_mem_cons.mp h
    rw [put, hk, ih hrest]
    rfl

/-- What is there already changes nothing. -/
theorem overlayEntries_eq_self
    (h : ∀ e ∈ upper, ∃ own, lookup e.1 base = some own ∧ overlay own e.2 = own) :
    overlayEntries base upper = base := by
  induction upper with
  | nil => exact overlayEntries_nil
  | cons e upper ih =>
    obtain ⟨⟨own, hown, hsame⟩, hrest⟩ := List.forall_mem_cons.mp h
    rw [overlayEntries_cons, hown, Option.elim_some, hsame, put_of_lookup hown, ih hrest]

/-- New entries come after those that are there. -/
theorem overlayEntries_of_new (h : EntriesOnce (base ++ upper)) :
    overlayEntries base upper = base ++ upper := by
  induction upper generalizing base with
  | nil => rw [overlayEntries_nil, List.append_nil]
  | cons e upper ih =>
    have hnew : ∀ k ∈ base.map Prod.fst, k.sameKey e.1 = false := by
      rw [EntriesOnce, List.map_append] at h
      exact fun k hk ↦ (List.pairwise_append.mp h).2.2 k hk e.1 List.mem_cons_self
    rw [overlayEntries_cons, lookup_eq_none_of_forall hnew, Option.elim_none, put_of_new hnew,
      ih (by rwa [← List.append_cons]), ← List.append_cons]

/-- An empty mapping adds nothing. -/
theorem overlay_empty : overlay (map own) (map []) = map own := by
  rw [overlay_map, overlayEntries_nil]

/-- An empty mapping leaves nothing below. -/
theorem empty_overlay (h : EntriesOnce entries) : overlay (map []) (map entries) = map entries := by
  have hnew : overlayEntries [] entries = [] ++ entries := overlayEntries_of_new h
  rw [overlay_map, hnew, List.nil_append]

/-- Data over itself is the same data. -/
theorem overlay_self (h : d.IsNested) : overlay d d = d := by
  induction h with
  | plain h => exact overlay_of_upper h
  | mapping once inner ih =>
    rw [overlay_map]
    exact congrArg map (overlayEntries_eq_self fun e he ↦ ⟨e.2, lookup_of_mem once he, ih e he⟩)

/-- To lay the same data over once more changes nothing. -/
theorem overlay_overlay {base upper : Data} (hbase : base.IsNested) (hupper : upper.IsNested) :
    overlay (overlay base upper) upper = overlay base upper := by
  induction hupper generalizing base with
  | plain h => rw [overlay_of_upper h, overlay_of_upper h]
  | @mapping entries once inner ih =>
    have hself := overlay_self (.mapping once inner)
    cases hbase with
    | plain h => rw [overlay_of_base h fun _ ↦ ⟨entries, rfl⟩, hself]
    | @mapping own once' inner' =>
      rw [overlay_map, overlay_map]
      refine congrArg map (overlayEntries_eq_self fun e he ↦ ?_)
      rw [lookup_overlayEntries once, lookup_of_mem once he]
      cases hw : lookup e.1 own with
      | none => exact ⟨e.2, rfl, overlay_self (inner e he)⟩
      | some w =>
        have hnested : w.IsNested := (isNested_map_iff.mpr ⟨once', inner'⟩).of_lookup hw
        exact ⟨overlay w e.2, rfl, ih e he hnested⟩

end Data

end RefCheck.Yaml
