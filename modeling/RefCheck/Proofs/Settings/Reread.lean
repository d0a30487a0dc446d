import RefCheck.Proofs.Check.Composed
import RefCheck.Proofs.Settings.Accepted
import RefCheck.Proofs.Text.Joined
import RefCheck.Settings.Sources

/-!
# Settings that are read again

What comes of reading settings is written down and read a second time. Whatever a reading accepts is in a form
of its own (`Settings.IsNormal`): destinations are paths in their shortest form, and checks are in their
order. In that form nothing changes any more, so the second reading gives what the first one gave:
`Settings.reread_eq`.
-/

namespace RefCheck

open RefCheck.Yaml RefCheck.Text RefCheck.Log

/-! ## Paths in their shortest form -/

namespace Path

variable {p q : Path} {homes : Homes}

/-- The names of a path are those that are read from its text. -/
def IsShort (p : Path) : Prop := ∀ name ∈ p.names, name.toList ≠ [] ∧ '/' ∉ name.toList ∧ name.toList ≠ ['.']

theorem isShort_ofString (s : String) : (ofString s).IsShort := by
  intro name hname
  obtain ⟨cs, hcs, rfl⟩ := List.mem_map.mp hname
  obtain ⟨hsegment, hpoint⟩ := List.mem_filter.mp hcs
  obtain ⟨hne, hslash⟩ := mem_segments hsegment
  rw [String.toList_ofList]
  exact ⟨hne, hslash, by simpa using hpoint⟩

theorem IsShort.expandHome (hp : p.IsShort) (h : p.expandHome homes = .ok q) : q.IsShort := by
  unfold Path.expandHome at h
  split at h
  · next first rest hroot hnames =>
    split at h
    · obtain ⟨home, -, h⟩ := Fault.bind_eq_ok_iff.mp h
      dsimp only at h
      split at h
      · cases h
      · obtain rfl := Except.ok.inj h
        intro name hname
        rcases List.mem_append.mp hname with hname | hname
        · exact isShort_ofString _ name hname
        · exact hp name (hnames ▸ List.mem_cons_of_mem first hname)
    · cases h
      exact hp
  · cases h
    exact hp

theorem expandHome_of_isAbsolute (h : p.isAbsolute = true) : p.expandHome homes = .ok p := by
  unfold Path.expandHome
  split
  · next hroot _ =>
    rw [isAbsolute, hroot] at h
    cases h
  · rfl

theorem toList_text (h : p.isAbsolute = true) :
    p.text.toList = p.root.text.toList ++ joinWith '/' (p.names.map String.toList) := by
  have hroot : p.root ≠ .relative := by simpa [isAbsolute] using h
  have hslash : ("/" : String).toList = ['/'] := rfl
  rw [text, if_neg (by simp [hroot]), String.toList_append, String.toList_intercalate, hslash,
    intercalate_eq_joinWith]

/-- A root is read from its text and what follows it, unless more slashes follow. -/
theorem rootOf_append {root : PathRoot} (hroot : root ≠ .relative) {cs : List Char}
    (hcs : cs.head? ≠ some '/') : rootOf (root.text.toList ++ cs) = root := by
  have hsingle : PathRoot.single.text.toList = ['/'] := rfl
  have hdouble : PathRoot.double.text.toList = ['/', '/'] := rfl
  cases root with
  | relative => exact (hroot rfl).elim
  | single =>
    rw [hsingle]
    cases cs with
    | nil => rfl
    | cons c cs =>
      have hc : c ≠ '/' := by simpa using hcs
      simp [rootOf, hc]
  | double =>
    rw [hdouble]
    cases cs with
    | nil => rfl
    | cons c cs =>
      have hc : c ≠ '/' := by simpa using hcs
      simp [rootOf, hc]

theorem segments_root_append (root : PathRoot) (cs : List Char) :
    segments '/' (root.text.toList ++ cs) = segments '/' cs := by
  cases root <;> rfl

private theorem head?_joinWith_ne {segs : List (List Char)} (h : ∀ s ∈ segs, s ≠ [] ∧ '/' ∉ s) :
    (joinWith '/' segs).head? ≠ some '/' := by
  cases segs with
  | nil => simp [joinWith]
  | cons s segs =>
    obtain ⟨hne, hslash⟩ := h s List.mem_cons_self
    cases s with
    | nil => exact (hne rfl).elim
    | cons c s =>
      have hc : c ≠ '/' := fun heq ↦ hslash (heq ▸ List.mem_cons_self)
      cases segs <;> simpa [joinWith] using hc

/-- **The text of a short absolute path is read as that path.** -/
theorem ofString_text (hp : p.IsShort) (h : p.isAbsolute = true) : ofString p.text = p := by
  have hsegs : ∀ s ∈ p.names.map String.toList, (s ≠ [] ∧ '/' ∉ s) ∧ s ≠ ['.'] := by
    intro s hs
    obtain ⟨name, hname, rfl⟩ := List.mem_map.mp hs
    obtain ⟨hne, hslash, hpoint⟩ := hp name hname
    exact ⟨⟨hne, hslash⟩, hpoint⟩
  have hroot : p.root ≠ .relative := by simpa [isAbsolute] using h
  have hnames : namesOf p.text.toList = p.names := by
    rw [namesOf, toList_text h, segments_root_append, segments_joinWith fun s hs ↦ (hsegs s hs).1,
      List.filter_eq_self.mpr fun s hs ↦ by simpa using (hsegs s hs).2, List.map_map]
    exact List.map_id'' (fun name ↦ String.ofList_toList) p.names
  rw [ofString, hnames, toList_text h, rootOf_append hroot (head?_joinWith_ne fun s hs ↦ (hsegs s hs).1)]

theorem exists_toList_text (h : p.isAbsolute = true) : ∃ rest, p.text.toList = '/' :: rest := by
  rw [toList_text h]
  cases hroot : p.root with
  | relative =>
    rw [isAbsolute, hroot] at h
    cases h
  | single => exact ⟨_, rfl⟩
  | double => exact ⟨_, rfl⟩

end Path

namespace Settings

open Checked

variable {homes : Homes}

/-! ## The form of what is read -/

/-- Reading a destination a second time changes nothing. -/
theorem destination_idem {s t : String} (h : destination homes s = .accepted t) :
    destination homes t = .accepted t := by
  unfold destination at h
  split at h
  · next hstream =>
    cases h
    rw [destination, if_pos hstream]
  · split at h
    · cases h
    · cases h
    · next p hp =>
      split at h
      · next habsolute =>
        cases h
        -- what is left is the text of an absolute path, which is read as that path
        have hshort := (Path.isShort_ofString s).expandHome hp
        obtain ⟨rest, hrest⟩ := Path.exists_toList_text habsolute
        have hfile : ¬(p.text = errorStream ∨ p.text = resultStream) := by
          rintro (heq | heq) <;> rw [heq] at hrest <;> cases hrest
        rw [destination, if_neg (by simpa using hfile), Path.ofString_text hshort habsolute,
          Path.expandHome_of_isAbsolute habsolute]
        dsimp only
        rw [if_pos habsolute]
      · cases h

/-- Settings in the form that reading them gives. -/
structure IsNormal (homes : Homes) (s : Settings) : Prop where
  destinations : ∀ o ∈ s.logging.outputs, destination homes o.destination = .accepted o.destination
  validators : ∃ chosen : Check → Bool, s.validation.validators = Check.all.filter chosen

theorem exists_filter_of_readChecks {d : Data} {cs : List Check} (h : readChecks d = .accepted cs) :
    ∃ chosen : Check → Bool, cs = Check.all.filter chosen := by
  obtain ⟨names, -, h⟩ := andThen_eq_accepted_iff.mp h
  unfold checksNamed at h
  dsimp only at h
  split at h
  · cases h
    exact ⟨_, rfl⟩
  · cases h

theorem destination_of_readOutput {d : Data} {o : LogOutput} (h : readOutput homes d = .accepted o) :
    destination homes o.destination = .accepted o.destination := by
  obtain ⟨entries, -, h⟩ := readSection_eq_accepted_iff.mp h
  obtain ⟨format, rest, -, hrest, rfl⟩ := zipWith_eq_accepted_iff.mp h
  obtain ⟨destination, level, hdestination, -, rfl⟩ := zipWith_eq_accepted_iff.mp hrest
  have hreads := readField_eq_accepted_iff.mp hdestination
  unfold Reads at hreads
  split at hreads
  · obtain ⟨text, -, htext⟩ := andThen_eq_accepted_iff.mp hreads
    exact destination_idem htext
  · rw [hreads]
    rfl

/-- **Whatever is accepted is in that form.** -/
theorem isNormal_of_readSections {entries : List (Scalar × Data)} {s : Settings}
    (h : readSections homes (.map entries) = .accepted s) : s.IsNormal homes := by
  obtain ⟨hlogging, hvalidation⟩ := readSections_eq_accepted_iff.mp h
  constructor
  · unfold Reads at hlogging
    split at hlogging
    · obtain ⟨fields, -, -, houtputs⟩ := readLogging_eq_accepted_iff.mp hlogging
      unfold Reads at houtputs
      split at houtputs
      · intro o ho
        obtain ⟨v, hv⟩ := exists_of_mem_readList houtputs o ho
        exact destination_of_readOutput hv
      · rw [houtputs]
        exact List.forall_mem_singleton.mpr rfl
    · rw [hlogging]
      exact List.forall_mem_singleton.mpr rfl
  · unfold Reads at hvalidation
    split at hvalidation
    · obtain ⟨fields, -, -, hvalidators, -⟩ := readValidation_eq_accepted_iff.mp hvalidation
      unfold Reads at hvalidators
      split at hvalidators
      · exact exists_filter_of_readChecks hvalidators
      · exact ⟨fun _ ↦ true, hvalidators⟩
    · exact ⟨fun _ ↦ true, congrArg CheckSettings.validators hvalidation⟩

/-! ## Reading it once more -/

theorem readAmong_name {α : Type} {all : List α} {name : α → String} {a : α}
    (h : (all.find? fun b ↦ name b == name a) = some a) :
    readAmong all name (.str (name a)) = .accepted a := by
  have hfound : ((Data.str (name a)).text?.bind fun s ↦ all.find? fun b ↦ name b == s) = some a := h
  rw [readAmong, hfound]

theorem readLevel_name (l : Level) : readLevel (.str l.name) = .accepted l :=
  readAmong_name (by cases l <;> decide)

theorem readOwnLevel_toValue (l : Option Level) :
    readOwnLevel (Data.ofValue (.ofText? (l.map Level.name))) = .accepted l := by
  cases l with
  | none => rfl
  | some l =>
    show (readLevel (.str l.name)).map some = _
    rw [readLevel_name]
    rfl

theorem readOutput_toValue {o : LogOutput}
    (h : destination homes o.destination = .accepted o.destination) :
    readOutput homes (Data.ofValue o.toValue) = .accepted o := by
  have hformat : readAmong LogFormat.all LogFormat.name (.str o.format.name) = .accepted o.format :=
    readAmong_name (by cases o.format <;> decide)
  have hread : readOutput homes (Data.ofValue o.toValue)
      = .zipWith (fun format rest ↦ ⟨format, rest.1, rest.2⟩)
          ((readAmong LogFormat.all LogFormat.name (.str o.format.name)).under (.field "format"))
          (.zipWith Prod.mk ((destination homes o.destination).under (.field "destination"))
            ((readOwnLevel (Data.ofValue (.ofText? (o.level.map Level.name)))).under
              (.field "level"))) := rfl
  rw [hread, hformat, h, readOwnLevel_toValue]
  rfl

theorem ofItems_eq_map (vs : List Value) : Data.ofItems vs = vs.map Data.ofValue := by
  induction vs with
  | nil => rfl
  | cons v vs ih => rw [Data.ofItems, ih, List.map_cons]

theorem readLogging_toValue {s : LogSettings}
    (h : ∀ o ∈ s.outputs, destination homes o.destination = .accepted o.destination) :
    readLogging homes (Data.ofValue s.toValue) = .accepted s := by
  have hitems : itemsFrom (readOutput homes) 0 (Data.ofItems (s.outputs.map LogOutput.toValue))
      = .accepted s.outputs := by
    rw [ofItems_eq_map, List.map_map]
    exact itemsFrom_map (fun o ho ↦ readOutput_toValue (h o ho)) 0
  have hread : readLogging homes (Data.ofValue s.toValue)
      = .zipWith LogSettings.mk ((readLevel (.str s.level.name)).under (.field "level"))
          ((itemsFrom (readOutput homes) 0 (Data.ofItems (s.outputs.map LogOutput.toValue))).under
            (.field "outputs")) := rfl
  rw [hread, readLevel_name, hitems]
  rfl

theorem selected_names_filter (chosen : Check → Bool) :
    Check.selected ((Check.all.filter chosen).map Check.name) = Check.all.filter chosen := by
  refine List.filter_congr fun c hc ↦ ?_
  rw [Bool.eq_iff_iff, List.contains_iff_mem, List.mem_map]
  constructor
  · rintro ⟨c', hc', hname⟩
    exact Pass.Check.name_injective hname ▸ (List.mem_filter.mp hc').2
  · exact fun h ↦ ⟨c, List.mem_filter.mpr ⟨hc, h⟩, rfl⟩

/-- Check settings as data. -/
theorem ofValue_toValue (s : CheckSettings) :
    Data.ofValue s.toValue = validationData s.strict (s.validators.map Check.name) s.excludedPaths := by
  simp only [CheckSettings.toValue, CheckSettings.validatorNames, validationData, Data.ofValue,
    Data.ofFields, ofItems_eq_map, List.map_map]
  rfl

theorem readValidation_toValue {s : CheckSettings}
    (h : ∃ chosen : Check → Bool, s.validators = Check.all.filter chosen) :
    readValidation (Data.ofValue s.toValue) = .accepted s := by
  obtain ⟨strict, validators, excluded⟩ := s
  obtain ⟨chosen, rfl⟩ := h
  rw [ofValue_toValue, readValidation_validationData strict excluded (Check.names_subset _),
    selected_names_filter]

/-- **Settings that were accepted are read as they are**, once they are written down. -/
theorem read_toValue {s : Settings} (h : s.IsNormal homes) :
    read homes (Data.ofValue s.toValue) = .accepted s := by
  have hread : read homes (Data.ofValue s.toValue)
      = .zipWith Settings.mk ((readLogging homes (Data.ofValue s.logging.toValue)).under (.field "logging"))
          ((readValidation (Data.ofValue s.validation.toValue)).under (.field "validation")) := rfl
  rw [hread, readLogging_toValue h.destinations, readValidation_toValue h.validators]
  rfl

theorem reread_eq {s : Settings} (h : s.IsNormal homes) : reread homes s = .ok s := by
  rw [reread, read_toValue h]
  rfl

/-- What comes of a first reading is in the form that a second one keeps. -/
theorem isNormal_of_readExactly {entries : List (Scalar × Data)} {s : Settings}
    (h : readExactly homes entries = .accepted s) : s.IsNormal homes := by
  obtain ⟨s', -, hsections, -, rfl⟩ := zipWith_eq_accepted_iff.mp h
  exact isNormal_of_readSections hsections

/-- **The second reading changes nothing**: settings are loaded exactly if the first reading accepts them. -/
theorem load_eq_ok_iff {src : Sources} {s : Settings} :
    load src = .ok s ↔ ∃ entries, src.entries = .ok entries ∧
      readExactly src.homes entries = .accepted s := by
  have hfirst : ∀ {c : Checked Settings} {s : Settings}, firstProblem c = .ok s ↔ c = .accepted s := by
    intro c s
    cases c <;> simp [firstProblem]
  unfold load
  rw [Fault.bind_eq_ok_iff]
  refine exists_congr fun entries ↦ and_congr_right fun _ ↦ ?_
  rw [Fault.bind_eq_ok_iff]
  constructor
  · rintro ⟨s', hs', hreread⟩
    have haccepted := hfirst.mp hs'
    rw [reread_eq (isNormal_of_readExactly haccepted)] at hreread
    cases hreread
    exact haccepted
  · exact fun h ↦ ⟨s, hfirst.mpr h, reread_eq (isNormal_of_readExactly h)⟩

end Settings

end RefCheck
