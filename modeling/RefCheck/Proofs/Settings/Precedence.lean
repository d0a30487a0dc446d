import RefCheck.Proofs.Settings.Layers
import RefCheck.Proofs.Settings.Reread

/-!
# Which source counts

Of the four sources that can say something of a setting, the strongest one that does counts: a program before
the environment, that before the file of the project, and that before the file of the user. The sources are
merged by two laws, files before the others, but for a single setting the order is one and the same.

`load_takes_strongest` says so of every setting by itself. A source that says something of one setting
therefore takes nothing away from another one, and what it says of a list stands for the whole list.
-/

namespace RefCheck.Settings

open RefCheck.Yaml RefCheck.Yaml.Data Checked

variable {α : Type} {entries : List (Scalar × Data)} {homes : Homes}

/-- What the first of some sources says of a setting that says anything of it. -/
def strongest? (layers : List (List (Scalar × Data))) (name field : String) : Option Data :=
  layers.findSome? (said? name field)

/-- Every setting is what its own reader reads from the strongest source, or its standard value. -/
structure IsFrom (homes : Homes) (layers : List (List (Scalar × Data))) (s : Settings) : Prop where
  level : Reads LogSettings.standard.level readLevel (strongest? layers "logging" "level") s.logging.level
  outputs : Reads LogSettings.standard.outputs (readList (readOutput homes))
    (strongest? layers "logging" "outputs") s.logging.outputs
  strict : Reads CheckSettings.standard.strict readTruth (strongest? layers "validation" "strict")
    s.validation.strict
  validators : Reads CheckSettings.standard.validators readChecks
    (strongest? layers "validation" "validators") s.validation.validators
  excludedPaths : Reads CheckSettings.standard.excludedPaths (readList readText)
    (strongest? layers "validation" "excluded_paths") s.validation.excludedPaths

/-- Of the merged sources a setting is what the strongest says, or a mapping. -/
theorem said?_merged {given environment project user : List (Scalar × Data)}
    (h : ∀ layer ∈ [given, environment, project, user], IsSectioned sectionNames layer)
    {name : String} (hname : name ∈ sectionNames) (field : String) :
    said? name field (overlayEntries (overlayEntries user project) (overlayEntries environment given))
        = strongest? [given, environment, project, user] name field ∨
      ∃ entries, said? name field
        (overlayEntries (overlayEntries user project) (overlayEntries environment given))
          = some (.map entries) := by
  simp only [List.forall_mem_cons] at h
  obtain ⟨hgiven, henvironment, hproject, huser, -⟩ := h
  have hfiles := said?_overlayEntries huser hproject hname field
  have hothers := said?_overlayEntries henvironment hgiven hname field
  have hall := said?_overlayEntries (huser.overlayEntries hproject) (henvironment.overlayEntries hgiven)
    hname field
  simp only [strongest?, List.findSome?_cons, List.findSome?_nil]
  generalize said? name field (overlayEntries (overlayEntries user project)
    (overlayEntries environment given)) = all at *
  generalize said? name field (overlayEntries user project) = files at *
  generalize said? name field (overlayEntries environment given) = others at *
  unfold LaidOver at hfiles hothers hall
  -- by which of the four sources say anything of the setting
  grind

/-- The settings of logs are read from what is said of them. -/
theorem reads_logging {s : LogSettings}
    (h : Reads LogSettings.standard (readLogging homes) (lookup (.str "logging") entries) s) :
    Reads LogSettings.standard.level readLevel (said? "logging" "level" entries) s.level ∧
      Reads LogSettings.standard.outputs (readList (readOutput homes))
        (said? "logging" "outputs" entries) s.outputs := by
  unfold Reads at h
  split at h
  · next d hd =>
    obtain ⟨fields, hopened, hreads⟩ := readLogging_eq_accepted_iff.mp h
    simpa only [said?, hd, Option.bind_some, hopened, get?] using hreads
  · next hnone =>
    subst h
    simp [said?, hnone, Reads]

/-- The settings of checks are read from what is said of them. -/
theorem reads_validation {s : CheckSettings}
    (h : Reads CheckSettings.standard readValidation (lookup (.str "validation") entries) s) :
    Reads CheckSettings.standard.strict readTruth (said? "validation" "strict" entries) s.strict ∧
      Reads CheckSettings.standard.validators readChecks (said? "validation" "validators" entries)
        s.validators ∧
      Reads CheckSettings.standard.excludedPaths (readList readText)
        (said? "validation" "excluded_paths" entries) s.excludedPaths := by
  unfold Reads at h
  split at h
  · next d hd =>
    obtain ⟨fields, hopened, hreads⟩ := readValidation_eq_accepted_iff.mp h
    simpa only [said?, hd, Option.bind_some, hopened, get?] using hreads
  · next hnone =>
    subst h
    simp [said?, hnone, Reads]

/-- Where a mapping is refused, what is read from merged sources is read from the strongest one. -/
theorem Reads.of_or {standard a : α} {read : Data → Checked α} {said strongest : Option Data}
    (hmap : ∀ entries a, read (.map entries) ≠ .accepted a)
    (hsaid : said = strongest ∨ ∃ entries, said = some (.map entries)) (h : Reads standard read said a) :
    Reads standard read strongest a := by
  rcases hsaid with rfl | ⟨entries, rfl⟩
  · exact h
  · exact (hmap entries a h).elim

theorem readList_map_ne {read : Data → Checked α} (entries : List (Scalar × Data)) (as : List α) :
    readList read (.map entries) ≠ .accepted as := by
  intro h
  cases h

theorem readChecks_map_ne (entries : List (Scalar × Data)) (cs : List Check) :
    readChecks (.map entries) ≠ .accepted cs := by
  intro h
  obtain ⟨names, hnames, -⟩ := andThen_eq_accepted_iff.mp h
  exact readList_map_ne entries names hnames

/-- **The strongest source counts**, for every setting by itself. -/
theorem load_takes_strongest {src : Sources} {s : Settings} (hsectional : src.isSectional = true)
    (hgiven : src.GivesOnce) (h : load src = .ok s) :
    ∃ layers, src.layers = .ok layers ∧ IsFrom src.homes layers s := by
  obtain ⟨entries, hentries, hexactly⟩ := load_eq_ok_iff.mp h
  obtain ⟨user, huser, hentries⟩ := Fault.bind_eq_ok_iff.mp hentries
  obtain ⟨project, hproject, hentries⟩ := Fault.bind_eq_ok_iff.mp hentries
  obtain ⟨environment, henvironment, hentries⟩ := Fault.bind_eq_ok_iff.mp hentries
  have hlayers : src.layers = .ok [properSections src.given, environment, project, user] := by
    rw [Sources.layers, huser, hproject, henvironment]
    rfl
  have hmerged : entries = overlayEntries (overlayEntries user project)
      (overlayEntries environment (properSections src.given)) := by
    dsimp only at hentries
    split at hentries
    · exact (Except.ok.inj hentries).symm
    · cases hentries
  have hlogging : "logging" ∈ sectionNames := by decide
  have hvalidation : "validation" ∈ sectionNames := by decide
  have hsaid := fun {name} (hname : name ∈ sectionNames) ↦ said?_merged
    (Sources.isSectioned_of_mem_layers hsectional hgiven hlayers) hname
  rw [← hmerged] at hsaid
  obtain ⟨s', -, hsections, -, rfl⟩ := zipWith_eq_accepted_iff.mp hexactly
  obtain ⟨hlogs, hchecks⟩ := readSections_eq_accepted_iff.mp hsections
  obtain ⟨hlevel, houtputs⟩ := reads_logging hlogs
  obtain ⟨hstrict, hvalidators, hexcluded⟩ := reads_validation hchecks
  refine ⟨_, hlayers, ?_, ?_, ?_, ?_, ?_⟩
  · exact hlevel.of_or (fun _ _ h ↦ by cases h) (hsaid hlogging "level")
  · exact houtputs.of_or readList_map_ne (hsaid hlogging "outputs")
  · exact hstrict.of_or (fun _ _ h ↦ by cases h) (hsaid hvalidation "strict")
  · exact hvalidators.of_or readChecks_map_ne (hsaid hvalidation "validators")
  · exact hexcluded.of_or readList_map_ne (hsaid hvalidation "excluded_paths")

/-- A file that holds a text. -/
def File.holding (path text : String) : File where
  path
  entry? := some (.file (text.toList.flatMap String.utf8EncodeChar))
  complaint := ""

/-- Sources each of which says a part of the settings: the file of the user makes issues fail a pass and
leaves out `gen`, that of the project names a check and a level, the environment takes the strictness back,
and a program gives another level. -/
def partialSources : Sources :=
  { userFile := .holding "config.yaml" "validation:\n  strict: true\n  excluded_paths: [gen]\n"
    projectFile := .holding projectFileName "logging:\n  level: DEBUG\nvalidation:\n  validators: [see]\n"
    environment := [("DOCXREF__VALIDATION__STRICT", "off")]
    given := [(.str "logging", .map [(.str "level", .str "ERROR")])]
    homes := ⟨"/", []⟩ }

/-- What comes of them: nothing that one source says is lost by what a stronger one says of another setting.
-/
def partialSettings : Settings := ⟨⟨.error, [.standard]⟩, ⟨false, [.see], ["gen"]⟩⟩

theorem load_partialSources : partialSources.isSectional = true ∧ partialSources.GivesOnce ∧
    load partialSources = .ok partialSettings ∧
    ∃ layers, partialSources.layers = .ok layers ∧ IsFrom partialSources.homes layers partialSettings := by
  have hsectional : partialSources.isSectional = true := by decide +kernel
  have hgiven : partialSources.GivesOnce := by simp [Sources.GivesOnce, partialSources, KeysOnce, EntriesOnce]
  have hload : load partialSources = .ok partialSettings := by
    have hsome : (load partialSources).toOption = some partialSettings := by decide +kernel
    cases hresult : load partialSources with
    | error f =>
      rw [hresult] at hsome
      cases hsome
    | ok s =>
      rw [hresult] at hsome
      rw [Option.some.inj hsome]
  exact ⟨hsectional, hgiven, hload, load_takes_strongest hsectional hgiven hload⟩

end RefCheck.Settings
