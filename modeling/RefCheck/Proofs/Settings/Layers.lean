import RefCheck.Proofs.Settings.Overlaid

/-!
# What each source says

What is read from a file, from the environment or taken from a program comes as entries, and however it was
written down, each key comes once in it: of a repeated key one value counts. So entries whose sections are
mappings are sectioned, which is all that laying sources over one another asks for.

`Sources.layers` is what the four sources say, the strongest first.
-/

namespace RefCheck.Yaml

variable {known entries : List (Scalar × Data)}

namespace Data

/-- If the data is a mapping, no key comes twice in it or in a mapping that stands under one of its keys. -/
structure HoldsOnce (d : Data) : Prop where
  keys : d.KeysOnce
  values : ∀ entries, d.opened = map entries → ∀ e ∈ entries, e.2.KeysOnce

theorem keysOnce_of_mem_entriesWithName {name : String} {meant : Data} (hmeant : meant.KeysOnce)
    (h : ∀ e ∈ known, e.2.KeysOnce) : ∀ e ∈ entriesWithName name meant known, e.2.KeysOnce := by
  induction known with
  | nil => exact h
  | cons first known ih =>
    obtain ⟨hfirst, hrest⟩ := List.forall_mem_cons.mp h
    rw [entriesWithName]
    exact List.forall_mem_cons.mpr ⟨KeysOnce.withName hmeant first.2 hfirst, ih hrest⟩

theorem holdsOnce_map (honce : EntriesOnce entries) (h : ∀ e ∈ entries, e.2.KeysOnce)
    (anchor : Option String) : (named anchor (map entries)).HoldsOnce := by
  have hplain : (map entries).HoldsOnce :=
    ⟨honce, fun own hown ↦ by
      cases hown
      exact h⟩
  cases anchor with
  | none => exact hplain
  | some name =>
    rw [named]
    split
    · refine ⟨honce, fun own hown ↦ ?_⟩
      rw [opened, withName] at hown
      cases hown
      exact keysOnce_of_mem_entriesWithName honce h
    · exact hplain

/-- Nothing is asked of data that is no mapping. -/
theorem holdsOnce_of_ne {d : Data} (hmap : ∀ entries, d ≠ map entries)
    (hknown : ∀ name inner, d ≠ .known name inner) (anchor : Option String) : (named anchor d).HoldsOnce := by
  have hplain : d.HoldsOnce := by
    refine ⟨?_, fun entries hopened ↦ ?_⟩
    · cases d with
      | map entries => exact (hmap entries rfl).elim
      | known name inner => exact (hknown name inner rfl).elim
      | scalar | list | pair | set | again => trivial
    · rcases opened_eq_map_iff.mp hopened with rfl | ⟨name, own, rfl, -⟩
      · exact (hmap entries rfl).elim
      · exact (hknown name (map own) rfl).elim
  cases anchor with
  | none => exact hplain
  | some name =>
    rw [named]
    split
    · refine ⟨hplain.keys, fun entries hopened ↦ ?_⟩
      rcases opened_eq_map_iff.mp hopened with heq | ⟨n, own, heq, -⟩
      · cases heq
      · cases heq
        exact (hmap own rfl).elim
    · exact hplain

end Data

open Data

namespace Node

/-! ## Files -/

theorem entriesOnce_lastEntries (entries : List (Scalar × Data)) : EntriesOnce (lastEntries entries) := by
  have hfold : ∀ known, EntriesOnce known →
      EntriesOnce (entries.foldl (fun known e ↦ put e.1 e.2 known) known) := by
    induction entries with
    | nil => exact fun _ h ↦ h
    | cons e entries ih => exact fun known h ↦ ih _ h.put
  exact hfold [] List.Pairwise.nil

theorem keysOnce_of_mem_lastEntries (h : ∀ e ∈ entries, e.2.KeysOnce) :
    ∀ e ∈ lastEntries entries, e.2.KeysOnce := by
  have hfold : ∀ known : List (Scalar × Data), (∀ e ∈ known, e.2.KeysOnce) →
      ∀ e ∈ entries.foldl (fun known e ↦ put e.1 e.2 known) known, e.2.KeysOnce := by
    induction entries with
    | nil => exact fun _ h ↦ h
    | cons first entries ih =>
      obtain ⟨hfirst, hrest⟩ := List.forall_mem_cons.mp h
      refine fun known hknown ↦ ih hrest _ fun e he ↦ ?_
      rcases mem_put he with heq | he
      · exact heq ▸ hfirst
      · exact hknown e he
  exact hfold [] fun e he ↦ (List.not_mem_nil he).elim

/-- Data in the place of names changes no key. -/
theorem once_of_fillMerged {read : Node → Except Mistake Data}
    (hread : ∀ n d, read n = .ok d → d.KeysOnce) {nodes : List (Node × Node)}
    {filled : List (Scalar × Data)} (h : fillMerged read nodes known = .ok filled)
    (honce : EntriesOnce known) (hvalues : ∀ e ∈ known, e.2.KeysOnce) :
    EntriesOnce filled ∧ ∀ e ∈ filled, e.2.KeysOnce := by
  unfold fillMerged at h
  split at h
  · next hagain =>
    clear hagain
    generalize mergedMapsIn nodes = maps at h
    -- one mapping after the other is filled in
    induction maps generalizing known with
    | nil =>
      cases h
      exact ⟨honce, hvalues⟩
    | cons n maps ih =>
      rw [List.foldlM_cons] at h
      cases hanchor : n.anchor with
      | none =>
        rw [hanchor] at h
        exact ih honce hvalues h
      | some name =>
        cases hn : read n with
        | error f =>
          rw [hanchor, hn] at h
          cases h
        | ok d =>
          rw [hanchor, hn] at h
          refine ih ?_ (keysOnce_of_mem_entriesWithName (hread n d hn) hvalues) h
          rw [EntriesOnce, keys_entriesWithName]
          exact honce
  · cases h
    exact ⟨honce, hvalues⟩

theorem holdsOnce_of_dataWithin : ∀ (steps : Nat) (n : Node) (d : Data), dataWithin steps n = .ok d →
    d.HoldsOnce := by
  intro steps
  induction steps with
  | zero =>
    intro n d h
    unfold dataWithin at h
    split at h
    · cases h
      exact holdsOnce_of_ne (by simp) (by simp) none
    · obtain ⟨s, -, rfl⟩ := Fault.map_eq_ok_iff.mp h
      exact holdsOnce_of_ne (by simp) (by simp) none
    · next heq _ => cases heq
  | succ steps ih =>
    intro n d h
    unfold dataWithin at h
    split at h
    · cases h
      exact holdsOnce_of_ne (by simp) (by simp) none
    · next heq _ => cases heq
    · next hsteps _ =>
      cases hsteps
      dsimp only at h
      -- lists, pairs, mappings, sets and scalars; something is to be shown of mappings only
      split at h
      · obtain ⟨inner, hinner, h⟩ := Fault.bind_eq_ok_iff.mp h
        obtain ⟨items, -, rfl⟩ := Fault.map_eq_ok_iff.mp hinner
        cases h
        exact holdsOnce_of_ne (by simp) (by simp) _
      · obtain ⟨inner, hinner, h⟩ := Fault.bind_eq_ok_iff.mp h
        obtain ⟨items, -, rfl⟩ := Fault.map_eq_ok_iff.mp hinner
        cases h
        exact holdsOnce_of_ne (by simp) (by simp) _
      · obtain ⟨nodes, -, h⟩ := Fault.bind_eq_ok_iff.mp h
        obtain ⟨read, hread, h⟩ := Fault.bind_eq_ok_iff.mp h
        obtain ⟨filled, hfilled, h⟩ := Fault.bind_eq_ok_iff.mp h
        cases h
        have hvalues : ∀ e ∈ read, e.2.KeysOnce := by
          intro e he
          obtain ⟨e', -, he'⟩ := (mem_of_mapM_eq_ok hread).mp he
          obtain ⟨k, -, he'⟩ := Fault.bind_eq_ok_iff.mp he'
          obtain ⟨key, -, he'⟩ := Fault.bind_eq_ok_iff.mp he'
          obtain ⟨v, hv, he'⟩ := Fault.bind_eq_ok_iff.mp he'
          cases he'
          exact (ih e'.2 v hv).keys
        obtain ⟨honce, hfilled⟩ := once_of_fillMerged (fun n d hn ↦ (ih n d hn).keys) hfilled
          (entriesOnce_lastEntries read) (keysOnce_of_mem_lastEntries hvalues)
        exact holdsOnce_map honce hfilled _
      · obtain ⟨nodes, -, h⟩ := Fault.bind_eq_ok_iff.mp h
        obtain ⟨read, -, h⟩ := Fault.bind_eq_ok_iff.mp h
        cases h
        exact holdsOnce_of_ne (by simp) (by simp) _
      · obtain ⟨inner, hinner, h⟩ := Fault.bind_eq_ok_iff.mp h
        obtain ⟨s, -, rfl⟩ := Fault.map_eq_ok_iff.mp hinner
        cases h
        exact holdsOnce_of_ne (by simp) (by simp) _

theorem holdsOnce_of_data {n : Node} {d : Data} (h : n.data = .ok d) : d.HoldsOnce := by
  obtain ⟨n, -, h⟩ := Fault.bind_eq_ok_iff.mp h
  obtain ⟨-, -, h⟩ := Fault.bind_eq_ok_iff.mp h
  obtain ⟨-, -, h⟩ := Fault.bind_eq_ok_iff.mp h
  exact holdsOnce_of_dataWithin _ n d h

end Node

theorem Data.holdsOnce_of_ofText {isWhole : Bool} {cs : List Char} {d : Data}
    (h : Data.ofText isWhole cs = .ok d) : d.HoldsOnce := by
  unfold Data.ofText at h
  split at h
  · cases h
  · obtain ⟨document, -, h⟩ := Fault.bind_eq_ok_iff.mp h
    cases document with
    | none =>
      cases h
      exact holdsOnce_of_ne (by simp) (by simp) none
    | some n => exact Node.holdsOnce_of_data h

end RefCheck.Yaml

namespace RefCheck

open RefCheck.Yaml RefCheck.Yaml.Data

variable {entries : List (Scalar × Data)}

namespace Settings

theorem ofText_of_dataOf {path complaint : String} {known : Input} {d : Data}
    (h : dataOf path complaint known = .ok d) : Data.ofText (known.extent == .whole) known.text = .ok d := by
  unfold dataOf at h
  split at h
  · next hd =>
    cases h
    exact hd
  · cases h
  · split at h <;> cases h

/-- The entries of a file hold each key once. -/
theorem File.once_of_entries {f : File} (h : f.entries = .ok entries) :
    EntriesOnce entries ∧ ∀ e ∈ entries, e.2.KeysOnce := by
  have hnil : EntriesOnce [] ∧ ∀ e ∈ ([] : List (Scalar × Data)), e.2.KeysOnce :=
    ⟨List.Pairwise.nil, fun e he ↦ (List.not_mem_nil he).elim⟩
  unfold File.entries at h
  split at h
  · next bytes _ =>
    obtain ⟨d, hd, h⟩ := Fault.bind_eq_ok_iff.mp h
    have honce := Data.holdsOnce_of_ofText (ofText_of_dataOf hd)
    split at h
    · next own hown =>
      cases h
      exact ⟨honce.keys.entriesOnce hown, honce.values _ hown⟩
    · split at h
      · cases h
      · cases h
        exact hnil
  · cases h
  · cases h
    exact hnil

end Settings

/-! ## The environment and the program -/

namespace Environment

theorem entriesOnce_properNames (names : SectionNames) (entries : List (Scalar × Data)) :
    EntriesOnce (properNames names entries) := by
  rw [properNames]
  generalize hstart : ([] : List (Scalar × Data)) = known
  have hknown : EntriesOnce known := hstart ▸ List.Pairwise.nil
  clear hstart
  induction entries generalizing known with
  | nil => exact hknown
  | cons e entries ih => exact ih _ hknown.put

theorem keysOnce_of_sectionData? {known : Table String String} {names : SectionNames} {d : Data}
    (h : sectionData? known names = .ok (some d)) : d.KeysOnce := by
  unfold sectionData? at h
  split at h
  · obtain ⟨built, -, h⟩ := Fault.bind_eq_ok_iff.mp h
    split at h
    · cases h
    · cases h
      exact entriesOnce_properNames _ _
  · obtain ⟨read, hread, h⟩ := Fault.bind_eq_ok_iff.mp h
    split at h
    · obtain ⟨built, -, h⟩ := Fault.bind_eq_ok_iff.mp h
      cases h
      exact entriesOnce_properNames _ _
    · cases h
    · next hmap _ =>
      cases h
      unfold readJson at hread
      split at hread
      · next v _ =>
        cases hread
        cases v with
        | obj fields => exact (hmap _ rfl).elim
        | null | bool | int | float | str | arr => trivial
      · cases hread

/-- What the environment says holds each key once. -/
theorem once_of_data {env : Environment} (h : env.data = .ok entries) :
    EntriesOnce entries ∧ ∀ e ∈ entries, e.2.KeysOnce := by
  unfold Environment.data at h
  obtain ⟨found, hfound, h⟩ := Fault.bind_eq_ok_iff.mp h
  cases h
  constructor
  · obtain ⟨logging, rest, hlogging, hrest, rfl⟩ := mapM_cons_eq_ok_iff.mp hfound
    obtain ⟨validation, none, hvalidation, hnone, rfl⟩ := mapM_cons_eq_ok_iff.mp hrest
    cases hnone
    obtain ⟨l, -, hl⟩ := Fault.bind_eq_ok_iff.mp hlogging
    obtain ⟨v, -, hv⟩ := Fault.bind_eq_ok_iff.mp hvalidation
    cases hl
    cases hv
    cases l <;> cases v <;> simp [EntriesOnce, Scalar.sameKey, Scalar.whole?]
  · intro e he
    obtain ⟨o, ho, rfl⟩ : ∃ o ∈ found, o = some e := by simpa using he
    obtain ⟨names, -, hnames⟩ := (mem_of_mapM_eq_ok hfound).mp ho
    obtain ⟨d?, hd, hsome⟩ := Fault.bind_eq_ok_iff.mp hnames
    cases d? with
    | none => cases hsome
    | some d =>
      cases hsome
      exact keysOnce_of_sectionData? hd

end Environment

namespace Settings

/-- What a program gives holds each key once, if its mappings do. -/
theorem once_properSections {given : List (Scalar × Data)} (h : ∀ e ∈ given, e.2.KeysOnce) :
    EntriesOnce (properSections given) ∧ ∀ e ∈ properSections given, e.2.KeysOnce := by
  have hstart : EntriesOnce [] ∧ ∀ e ∈ ([] : List (Scalar × Data)), e.2.KeysOnce :=
    ⟨List.Pairwise.nil, fun e he ↦ (List.not_mem_nil he).elim⟩
  unfold properSections
  generalize ([] : List (Scalar × Data)) = known at hstart
  induction given generalizing known with
  | nil => exact hstart
  | cons first given ih =>
    obtain ⟨hfirst, hrest⟩ := List.forall_mem_cons.mp h
    rw [List.foldl_cons]
    refine ih hrest _ ?_
    dsimp only
    split
    · exact hstart
    · refine ⟨hstart.1.put, fun e he ↦ ?_⟩
      rcases mem_put he with heq | he
      · exact heq ▸ hfirst
      · exact hstart.2 e he

/-- What the sources say, the strongest first. -/
def Sources.layers (src : Sources) : Except Fault (List (List (Scalar × Data))) := do
  let user ← src.userFile.entries
  let project ← src.projectFile.entries
  let environment ← src.environment.data
  return [properSections src.given, environment, project, user]

/-- Whatever a source says of a section is a mapping. -/
def Sources.isSectional (src : Sources) : Bool :=
  match src.layers with
  | .ok layers => layers.all fun layer ↦ sectionNames.all fun name ↦
      (lookup (.str name) layer).all isMapping
  | .error _ => true

/-- No mapping that a program gives for a section has a key twice. -/
def Sources.GivesOnce (src : Sources) : Prop := ∀ e ∈ src.given, e.2.KeysOnce

/-- Each source that says nothing but mappings of sections says them with every key once. -/
theorem Sources.isSectioned_of_mem_layers {src : Sources} {layers : List (List (Scalar × Data))}
    (hsectional : src.isSectional = true) (hgiven : src.GivesOnce) (h : src.layers = .ok layers) :
    ∀ layer ∈ layers, IsSectioned sectionNames layer := by
  have hlayers := h
  obtain ⟨user, huser, h⟩ := Fault.bind_eq_ok_iff.mp h
  obtain ⟨project, hproject, h⟩ := Fault.bind_eq_ok_iff.mp h
  obtain ⟨environment, henvironment, h⟩ := Fault.bind_eq_ok_iff.mp h
  cases h
  have honce : ∀ layer ∈ [properSections src.given, environment, project, user],
      EntriesOnce layer ∧ ∀ e ∈ layer, e.2.KeysOnce := by
    simp only [List.forall_mem_cons]
    exact ⟨once_properSections hgiven, Environment.once_of_data henvironment,
      File.once_of_entries hproject, File.once_of_entries huser, fun _ h ↦ (List.not_mem_nil h).elim⟩
  intro layer hlayer
  obtain ⟨hkeys, hvalues⟩ := honce layer hlayer
  refine ⟨hkeys, fun name hname d hd ↦ ?_⟩
  simp only [Sources.isSectional, hlayers, List.all_eq_true, Option.all_eq_true] at hsectional
  obtain ⟨fields, hfields⟩ := isMapping_iff.mp (hsectional layer hlayer name hname d hd)
  obtain ⟨k, hmem⟩ := exists_mem_of_lookup hd
  exact ⟨fields, hfields, (hvalues _ hmem).entriesOnce hfields⟩

end Settings

end RefCheck
