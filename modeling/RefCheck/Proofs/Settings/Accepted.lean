import RefCheck.Proofs.Check.Grown

/-!
# What is accepted

A reading of settings is put together from readings of their parts, and it is accepted only if each of those
is. The laws here take an accepted reading apart again: a section had to be a mapping, of each setting either
the data that stands there was accepted or the standard value was taken, and each item of a list was accepted.
-/

namespace RefCheck

open RefCheck.Yaml

variable {α β γ : Type}

namespace Checked

theorem under_eq_accepted_iff {c : Checked α} {step : Place} {a : α} :
    c.under step = .accepted a ↔ c = .accepted a := by
  cases c <;> simp [under]

theorem map_eq_accepted_iff {c : Checked α} {g : α → β} {b : β} :
    c.map g = .accepted b ↔ ∃ a, c = .accepted a ∧ g a = b := by
  cases c <;> simp [map]

theorem andThen_eq_accepted_iff {c : Checked α} {next : α → Checked β} {b : β} :
    c.andThen next = .accepted b ↔ ∃ a, c = .accepted a ∧ next a = .accepted b := by
  cases c <;> simp [andThen]

theorem zipWith_eq_accepted_iff {f : α → β → γ} {a : Checked α} {b : Checked β} {c : γ} :
    zipWith f a b = .accepted c ↔ ∃ x y, a = .accepted x ∧ b = .accepted y ∧ c = f x y := by
  refine ⟨Settings.accepted_of_zipWith, ?_⟩
  rintro ⟨x, y, rfl, rfl, rfl⟩
  rfl

/-- Every item that was read was read from an item. -/
theorem exists_of_mem_itemsFrom {read : β → Checked α} {items : List β} {n : Nat} {as : List α}
    (h : itemsFrom read n items = .accepted as) : ∀ a ∈ as, ∃ b, read b = .accepted a := by
  induction items generalizing n as with
  | nil =>
    cases h
    exact fun a ha ↦ (List.not_mem_nil ha).elim
  | cons b items ih =>
    obtain ⟨x, xs, hx, hxs, rfl⟩ := zipWith_eq_accepted_iff.mp h
    exact List.forall_mem_cons.mpr ⟨⟨b, under_eq_accepted_iff.mp hx⟩, ih hxs⟩

/-- Items are read if each of them is. -/
theorem itemsFrom_map {read : β → Checked α} {write : α → β} {as : List α}
    (h : ∀ a ∈ as, read (write a) = .accepted a) (n : Nat) :
    itemsFrom read n (as.map write) = .accepted as := by
  induction as generalizing n with
  | nil => rfl
  | cons a as ih =>
    obtain ⟨ha, has⟩ := List.forall_mem_cons.mp h
    rw [List.map_cons, itemsFrom, ha, ih has]
    rfl

end Checked

namespace Settings

open Checked RefCheck.Log

/-- What is read where data may be missing: the data if it is there, else a standard value. -/
def Reads (standard : α) (read : Data → Checked α) (said : Option Data) (a : α) : Prop :=
  match said with
  | some d => read d = .accepted a
  | none => a = standard

variable {d : Data} {entries : List (Scalar × Data)} {homes : Homes}

theorem readField_eq_accepted_iff {name : String} {standard a : α} {read : Data → Checked α} :
    readField d name standard read = .accepted a ↔ Reads standard read (d.get? name) a := by
  rw [readField]
  cases d.get? name with
  | none => simp [Reads, eq_comm]
  | some v => exact under_eq_accepted_iff

theorem readSection_eq_accepted_iff {name : String} {read : Data → Checked α} {a : α} :
    readSection name read d = .accepted a ↔
      ∃ entries, d.opened = .map entries ∧ read (.map entries) = .accepted a := by
  rw [readSection]
  constructor
  · intro h
    split at h
    · next entries hd => exact ⟨entries, hd, h⟩
    · cases h
  · rintro ⟨entries, hd, h⟩
    rw [hd]
    exact h

theorem exists_of_mem_readList {read : Data → Checked α} {as : List α}
    (h : readList read d = .accepted as) : ∀ a ∈ as, ∃ v, read v = .accepted a := by
  rw [readList] at h
  split at h
  · exact exists_of_mem_itemsFrom h
  · exact exists_of_mem_itemsFrom h
  · cases h

/-! ## Sections -/

theorem readLogging_eq_accepted_iff {s : LogSettings} :
    readLogging homes d = .accepted s ↔ ∃ entries, d.opened = .map entries ∧
      Reads LogSettings.standard.level readLevel (Data.lookup (.str "level") entries) s.level ∧
      Reads LogSettings.standard.outputs (readList (readOutput homes))
        (Data.lookup (.str "outputs") entries) s.outputs := by
  rw [readLogging, readSection_eq_accepted_iff]
  refine exists_congr fun entries ↦ and_congr_right fun _ ↦ ?_
  simp only [zipWith_eq_accepted_iff, readField_eq_accepted_iff]
  constructor
  · rintro ⟨level, outputs, hlevel, houtputs, rfl⟩
    exact ⟨hlevel, houtputs⟩
  · rintro ⟨hlevel, houtputs⟩
    exact ⟨s.level, s.outputs, hlevel, houtputs, rfl⟩

theorem readValidation_eq_accepted_iff {s : CheckSettings} :
    readValidation d = .accepted s ↔ ∃ entries, d.opened = .map entries ∧
      Reads CheckSettings.standard.strict readTruth (Data.lookup (.str "strict") entries) s.strict ∧
      Reads CheckSettings.standard.validators readChecks (Data.lookup (.str "validators") entries)
        s.validators ∧
      Reads CheckSettings.standard.excludedPaths (readList readText)
        (Data.lookup (.str "excluded_paths") entries) s.excludedPaths := by
  rw [readValidation, readSection_eq_accepted_iff]
  refine exists_congr fun entries ↦ and_congr_right fun _ ↦ ?_
  simp only [zipWith_eq_accepted_iff, readField_eq_accepted_iff]
  constructor
  · rintro ⟨strict, rest, hstrict, ⟨validators, paths, hvalidators, hpaths, rfl⟩, rfl⟩
    exact ⟨hstrict, hvalidators, hpaths⟩
  · rintro ⟨hstrict, hvalidators, hpaths⟩
    exact ⟨s.strict, (s.validators, s.excludedPaths), hstrict,
      ⟨s.validators, s.excludedPaths, hvalidators, hpaths, rfl⟩, rfl⟩

theorem readSections_eq_accepted_iff {s : Settings} :
    readSections homes (.map entries) = .accepted s ↔
      Reads LogSettings.standard (readLogging homes) (Data.lookup (.str "logging") entries) s.logging ∧
        Reads CheckSettings.standard readValidation (Data.lookup (.str "validation") entries)
          s.validation := by
  simp only [readSections, zipWith_eq_accepted_iff, readField_eq_accepted_iff]
  constructor
  · rintro ⟨logging, validation, hlogging, hvalidation, rfl⟩
    exact ⟨hlogging, hvalidation⟩
  · rintro ⟨hlogging, hvalidation⟩
    exact ⟨s.logging, s.validation, hlogging, hvalidation, rfl⟩

end Settings

end RefCheck
