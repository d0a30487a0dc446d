import RefCheck.Log.Journal

/-!
# Journals that keep the results free

A journal whose outputs are other than the stream of results writes nothing among the results, whatever is
told (`Journal.IsQuiet`). Whether the outputs of settings can be opened is a matter of where they are and of
the disk, so it does not change with a level.
-/

namespace RefCheck.Log

namespace Journal

variable {j : Journal} {time : String}

/-! ## Opening outputs -/

/-- Opening an output is the same on the same disk. -/
theorem openOutput_agrees {k : Journal} (hdisk : j.disk = k.disk) (least least' : Level) (o : LogOutput) :
    (j.openOutput least o).2 = (k.openOutput least' o).2 ∧
      (j.openOutput least o).1.disk = (k.openOutput least' o).1.disk := by
  unfold openOutput
  dsimp only
  split
  · exact ⟨rfl, hdisk⟩
  split
  · exact ⟨rfl, hdisk⟩
  · rw [hdisk]
    rcases k.disk.openLog (Path.ofString o.destination) with ⟨disk, flaw | names⟩
    · exact ⟨rfl, rfl⟩
    · exact ⟨rfl, rfl⟩

theorem openAll_snd_eq {k : Journal} (hdisk : j.disk = k.disk) (least least' : Level)
    (os : List LogOutput) : (j.openAll least os).2 = (k.openAll least' os).2 := by
  induction os generalizing j k with
  | nil => rfl
  | cons o os ih =>
    -- the journals differ in their levels and channels, but go on with the same disk
    obtain ⟨hflaw, hdisk'⟩ := openOutput_agrees hdisk least least' o
    rw [openAll, openAll]
    rcases hopen : j.openOutput least o with ⟨i, flaw⟩
    rcases hopen' : k.openOutput least' o with ⟨i', flaw'⟩
    rw [hopen, hopen'] at hflaw hdisk'
    dsimp only at hflaw hdisk'
    subst hflaw
    cases flaw with
    | none => exact ih hdisk'
    | some f => rfl

/-- **A level decides nothing about whether the outputs can be opened.** -/
theorem configure_snd_eq (j : Journal) (level level' : Level) (outputs : List LogOutput) :
    (j.configure ⟨level, outputs⟩).2 = (j.configure ⟨level', outputs⟩).2 :=
  openAll_snd_eq (j := { j with least := some level, channels := [], file? := none })
    (k := { j with least := some level', channels := [], file? := none }) rfl level level' outputs

/-! ## Keeping the results free -/

/-- There are settings, no output is the stream of results, and nothing went there. -/
structure IsQuiet (j : Journal) : Prop where
  settled : j.least.isSome = true
  channels : ∀ c ∈ j.channels, c.target ≠ .results
  results : j.linesTo .results = []

theorem linesTo_append {written : List Written} {target : Target} :
    { j with written := j.written ++ written }.linesTo target
      = j.linesTo target ++ (written.filter fun w ↦ w.target == target).map Written.line := by
  simp [linesTo]

/-- What cannot be written in columns leaves the results alone as well. -/
theorem linesOf_quiet (h : j.IsQuiet) (e : Event) :
    (linesOf j.logger j.least j.channels time e).filter (fun w ↦ w.target == .results) = [] := by
  rw [List.filter_eq_nil_iff]
  intro w hw
  obtain ⟨least, hleast⟩ := Option.isSome_iff_exists.mp h.settled
  rw [logger, hleast, linesOf] at hw
  dsimp only at hw
  split at hw
  · cases hw
  split at hw
  · split at hw
    · rw [List.mem_singleton.mp hw]
      exact Bool.false_ne_true
    · cases hw
  · obtain ⟨c, hc, rfl⟩ := List.mem_map.mp hw
    unfold Channel.write
    split
    · simpa using h.channels c (List.mem_filter.mp hc).1
    · exact Bool.false_ne_true

theorem IsQuiet.tell (h : j.IsQuiet) (time : String) (e : Event) : (j.tell time e).IsQuiet := by
  refine ⟨h.settled, h.channels, ?_⟩
  rw [Journal.tell, tellBy, linesTo_append, h.results, linesOf_quiet h]
  rfl

/-- **Whatever is told, nothing goes to the results.** -/
theorem IsQuiet.tellAll (h : j.IsQuiet) (time : String) (es : List Event) : (j.tellAll time es).IsQuiet := by
  induction es generalizing j with
  | nil => exact h
  | cons e es ih => exact ih (h.tell time e)

theorem IsQuiet.actAll (h : j.IsQuiet) (time : String) (acts : List Act) : (j.actAll time acts).IsQuiet := by
  induction acts generalizing j with
  | nil => exact h
  | cons a acts ih =>
    cases a with
    | startPass id => exact ih (j := j.startPass id) ⟨h.settled, h.channels, h.results⟩
    | endPass => exact ih (j := j.endPass) ⟨h.settled, h.channels, h.results⟩
    | tell e => exact ih (h.tell time e)

theorem IsQuiet.openOutput (h : j.IsQuiet) {o : LogOutput} (ho : o.destination ≠ resultStream)
    (least : Level) : (j.openOutput least o).1.IsQuiet := by
  have hadd : ∀ {target : Target} {format : LogFormat} {level : Level}, target ≠ .results →
      ∀ c ∈ j.channels ++ [⟨target, format, level⟩], c.target ≠ .results := by
    intro target format level htarget
    exact List.forall_mem_append.mpr ⟨h.channels, List.forall_mem_singleton.mpr htarget⟩
  unfold Journal.openOutput
  dsimp only
  rw [if_neg ho]
  split
  · exact ⟨h.settled, hadd (by decide), h.results⟩
  · rcases j.disk.openLog (Path.ofString o.destination) with ⟨disk, flaw | names⟩
    · exact ⟨h.settled, h.channels, h.results⟩
    · exact ⟨h.settled, hadd (by simp), h.results⟩

theorem IsQuiet.openAll (h : j.IsQuiet) (least : Level) {os : List LogOutput}
    (hos : ∀ o ∈ os, o.destination ≠ resultStream) : (j.openAll least os).1.IsQuiet := by
  induction os generalizing j with
  | nil => exact h
  | cons o os ih =>
    obtain ⟨ho, hos⟩ := List.forall_mem_cons.mp hos
    have hopened := h.openOutput ho least
    rw [Journal.openAll]
    rcases hopen : j.openOutput least o with ⟨k, flaw⟩
    rw [hopen] at hopened
    cases flaw with
    | none => exact ih hopened hos
    | some f => exact hopened

/-- **Settings keep the results free** if no output of theirs is the stream of results. -/
theorem isQuiet_configure (hj : j.linesTo .results = []) {s : LogSettings}
    (hs : ∀ o ∈ s.outputs, o.destination ≠ resultStream) : (j.configure s).1.IsQuiet :=
  IsQuiet.openAll (j := { j with least := some s.level, channels := [], file? := none })
    ⟨rfl, fun _ hc ↦ (List.not_mem_nil hc).elim, hj⟩ s.level hs

end Journal

end RefCheck.Log
