import RefCheck.Log.Journal

/-!
# Outputs of a log

What is done to a journal is a change after another: new settings, the start and the end of a pass, and events. After
any changes the outputs in place are those of the latest settings, as far as they could be opened, and none of
earlier ones: one change keeps it so (`Journal.IsSetTo.change`), and therefore all do (`Journal.IsSetTo.run`).

So an event is written once to every output of the latest settings that asks for its level, and nowhere else, as
`Journal.writes_to_outputs` says. The level of the settings comes first: what is below it reaches no output,
whatever level the output asks for (`Journal.writes_nothing_below`). A logger that was bound before those settings
adds what it has kept of others, and an output that cannot write an event leaves it to the stream of errors.
-/

namespace RefCheck.Log

/-- What is done to a journal. -/
inductive Change where
  /-- There are new settings. -/
  | configure (s : LogSettings)
  /-- A pass starts. -/
  | startPass (id : Value)
  /-- No pass is running any more. -/
  | endPass
  /-- A logger tells an event at a time. -/
  | tell (l : Logger) (time : String) (e : Event)

namespace Change

/-- The change makes new settings. -/
def isConfigure : Change → Bool
  | configure _ => true
  | _ => false

/-- The change is an event. -/
def isTell : Change → Bool
  | tell _ _ _ => true
  | _ => false

end Change

/-- The lines of an output go to its stream, or to the file that was opened for it. -/
inductive LeadsTo (o : LogOutput) : Target → Prop
  | errors (h : o.destination = errorStream) : LeadsTo o .errors
  | results (h : o.destination = resultStream) : LeadsTo o .results
  | file {disk disk' : Disk} {names : List String} (hfile : o.isStream = false)
      (hopen : disk.openLog (Path.ofString o.destination) = (disk', .ok names)) : LeadsTo o (.file names)

namespace Journal

variable {j j' : Journal} {s : LogSettings} {opened : List (LogOutput × Target)} {level : Level} {o : LogOutput}
  {flaw : Option DiskFlaw}

/-- The journal after a change. -/
def change (j : Journal) : Change → Journal
  | .configure s => (j.configure s).1
  | .startPass id => j.startPass id
  | .endPass => j.endPass
  | .tell l time e => j.tellBy l time e

/-- The journal after changes. -/
def run (j : Journal) (changes : List Change) : Journal := changes.foldl change j

/-! ## Opening outputs -/

/-- The open end of an output. -/
def channelOf (level : Level) (x : LogOutput × Target) : Channel := ⟨x.2, x.1.format, x.1.level.getD level⟩

/-- What opening an output changes: there is one more channel, unless a file cannot be opened. -/
structure Opens (level : Level) (o : LogOutput) (j j' : Journal) (flaw : Option DiskFlaw) : Prop where
  least : j'.least = j.least
  written : j'.written = j.written
  file : j'.file? = (j.file? <|> if o.isStream then none else some o.destination)
  channels : (flaw = none ∧ ∃ target, LeadsTo o target ∧
      j'.channels = j.channels ++ [channelOf level (o, target)]) ∨
    (∃ f, flaw = some f ∧ o.isStream = false ∧
      (j.disk.openLog (Path.ofString o.destination)).2 = .error f ∧ j'.channels = j.channels)

theorem opens_openOutput (j : Journal) (level : Level) (o : LogOutput) :
    Opens level o j (j.openOutput level o).1 (j.openOutput level o).2 := by
  unfold openOutput
  dsimp only
  by_cases herrors : o.destination = errorStream
  · have hstream : o.isStream = true := by simp [LogOutput.isStream, herrors]
    rw [if_pos herrors]
    exact ⟨rfl, rfl, by simp [hstream], .inl ⟨rfl, .errors, .errors herrors, rfl⟩⟩
  by_cases hresults : o.destination = resultStream
  · have hstream : o.isStream = true := by simp [LogOutput.isStream, hresults]
    rw [if_neg herrors, if_pos hresults]
    exact ⟨rfl, rfl, by simp [hstream], .inl ⟨rfl, .results, .results hresults, rfl⟩⟩
  · have hfile : o.isStream = false := by simp [LogOutput.isStream, herrors, hresults]
    rw [if_neg herrors, if_neg hresults]
    cases hopen : j.disk.openLog (Path.ofString o.destination) with
    | mk disk result =>
      cases result with
      | error f => exact ⟨rfl, rfl, by rw [hfile]; rfl, .inr ⟨f, rfl, hfile, by rw [hopen], rfl⟩⟩
      | ok names => exact ⟨rfl, rfl, by rw [hfile]; rfl, .inl ⟨rfl, .file names, .file hfile hopen, rfl⟩⟩

/-- What opening several outputs changes: they are opened in order, up to the first that cannot be. -/
structure OpensAll (level : Level) (os : List LogOutput) (j j' : Journal) (flaw : Option DiskFlaw)
    (opened : List (LogOutput × Target)) : Prop where
  least : j'.least = j.least
  written : j'.written = j.written
  file : j'.file? = (j.file? <|> (os.find? fun o ↦ !o.isStream).map LogOutput.destination)
  channels : j'.channels = j.channels ++ opened.map (channelOf level)
  leads : ∀ x ∈ opened, LeadsTo x.1 x.2
  inOrder : flaw = none ∧ opened.map Prod.fst = os ∨
    ∃ f o rest, flaw = some f ∧ os = opened.map Prod.fst ++ o :: rest ∧ o.isStream = false ∧
      ((j.openAll level (opened.map Prod.fst)).1.disk.openLog (Path.ofString o.destination)).2 = .error f

theorem exists_opensAll (j : Journal) (level : Level) (os : List LogOutput) :
    ∃ opened, OpensAll level os j (j.openAll level os).1 (j.openAll level os).2 opened := by
  induction os generalizing j with
  | nil =>
    refine ⟨[], rfl, rfl, ?_, (List.append_nil _).symm, fun _ h ↦ (List.not_mem_nil h).elim, .inl ⟨rfl, rfl⟩⟩
    cases h : j.file? <;> simp [openAll, h]
  | cons o os ih =>
    have hfirst := opens_openOutput j level o
    rw [openAll]
    rcases hopen : j.openOutput level o with ⟨k, flaw⟩
    rw [hopen] at hfirst
    dsimp only at hfirst
    rcases hfirst.channels with ⟨rfl, target, hleads, hchannels⟩ | ⟨f, rfl, hfile, hflaw, hchannels⟩
    · obtain ⟨opened, hrest⟩ := ih k
      refine ⟨(o, target) :: opened, hrest.least.trans hfirst.least, hrest.written.trans hfirst.written, ?_, ?_,
        List.forall_mem_cons.mpr ⟨hleads, hrest.leads⟩, ?_⟩
      · rw [hrest.file, hfirst.file, List.find?_cons]
        cases o.isStream with
        | true =>
          rw [if_pos rfl]
          cases j.file? <;> rfl
        | false => cases j.file? <;> rfl
      · rw [hrest.channels, hchannels, List.append_assoc]
        rfl
      · rcases hrest.inOrder with ⟨hnone, hall⟩ | ⟨f, stop, rest, hsome, hos, hfile, hflaw⟩
        · exact .inl ⟨hnone, congrArg (o :: ·) hall⟩
        · refine .inr ⟨f, stop, rest, hsome, congrArg (o :: ·) hos, hfile, ?_⟩
          rwa [List.map_cons, openAll, hopen]
    · -- it stops at the first file that cannot be opened, whose path is kept all the same
      refine ⟨[], hfirst.least, hfirst.written, ?_, ?_, fun _ h ↦ (List.not_mem_nil h).elim,
        .inr ⟨f, o, os, rfl, rfl, hfile, hflaw⟩⟩
      · rw [hfirst.file, List.find?_cons, hfile]
        rfl
      · rw [hchannels, List.map_nil, List.append_nil]

/-! ## Outputs in place -/

/-- The outputs in place are those of settings, as far as they could be opened; the path of the log is that of the
first file among them. -/
structure IsSetTo (s : LogSettings) (opened : List (LogOutput × Target)) (j : Journal) : Prop where
  least : j.least = some s.level
  channels : j.channels = opened.map (channelOf s.level)
  file : j.file? = (s.outputs.find? fun o ↦ !o.isStream).map LogOutput.destination

/-- Of the outputs of settings these can be opened: all of them, or those before the first file that cannot be, on the
disk as they leave it. -/
def OpensUpTo (j : Journal) (s : LogSettings) (first : List LogOutput) : Prop :=
  (j.configure s).2 = none ∧ first = s.outputs ∨
    ∃ f o rest, (j.configure s).2 = some f ∧ s.outputs = first ++ o :: rest ∧ o.isStream = false ∧
      ((j.configure { s with outputs := first }).1.disk.openLog (Path.ofString o.destination)).2 = .error f

/-- New settings leave no output of earlier ones. -/
theorem exists_isSetTo_configure (j : Journal) (s : LogSettings) :
    ∃ opened, IsSetTo s opened (j.configure s).1 ∧ (j.configure s).1.written = j.written ∧
      (∀ x ∈ opened, LeadsTo x.1 x.2) ∧ j.OpensUpTo s (opened.map Prod.fst) := by
  obtain ⟨opened, h⟩ := exists_opensAll { j with least := some s.level, channels := [], file? := none } s.level
    s.outputs
  exact ⟨opened, ⟨h.least, h.channels, h.file⟩, h.written, h.leads, h.inOrder⟩

/-- Only new settings change which outputs are in place. -/
theorem IsSetTo.change (h : IsSetTo s opened j) {c : Change} (hc : c.isConfigure = false) :
    IsSetTo s opened (j.change c) := by
  cases c with
  | configure s' => cases hc
  | startPass id => exact ⟨h.least, h.channels, h.file⟩
  | endPass => exact ⟨h.least, h.channels, h.file⟩
  | tell l time e => exact ⟨h.least, h.channels, h.file⟩

theorem IsSetTo.run (h : IsSetTo s opened j) {changes : List Change}
    (hchanges : ∀ c ∈ changes, c.isConfigure = false) : IsSetTo s opened (j.run changes) := by
  induction changes generalizing j with
  | nil => exact h
  | cons c changes ih =>
    obtain ⟨hc, hchanges⟩ := List.forall_mem_cons.mp hchanges
    exact ih (h.change hc) hchanges

/-- Only an event is written. -/
theorem written_change {c : Change} (hc : c.isTell = false) : (j.change c).written = j.written := by
  cases c with
  | configure s' =>
    obtain ⟨opened, -, hwritten, -⟩ := exists_isSetTo_configure j s'
    exact hwritten
  | startPass id => rfl
  | endPass => rfl
  | tell l time e => cases hc

/-! ## Events -/

/-- The lines that an event of a logger gives with settings whose outputs could be opened this far. -/
structure GivesLines (s : LogSettings) (opened : List (LogOutput × Target)) (l : Logger) (time : String) (e : Event)
    (lines : List Written) : Prop where
  /-- A logger that was bound before there were any settings goes on with one line among the results, if the event can
  be written in columns. -/
  early : l.least = none → lines = if e.hasColumns then [⟨.results, earlyLine time e⟩] else []
  /-- What is below the level of the settings, or of those that the logger was bound with, gives none. -/
  below : ∀ own, l.least = some own → (own.admits e.level && s.level.admits e.level) = false → lines = []
  /-- Every output that asks for the level gets one, in its form. In place of an event that cannot be written in
  columns, the stream of errors gets a report for each output that wants it so. -/
  asked : ∀ own, l.least = some own → (own.admits e.level && s.level.admits e.level) = true → opened ≠ [] → lines =
    (opened.filter fun x ↦ (x.1.level.getD s.level).admits e.level).map fun x ↦
      if x.1.format == .json || e.hasColumns then ⟨x.2, formLine time e x.1.format⟩
      else ⟨.errors, complaint time e⟩
  /-- Without any output, one goes to the stream of errors from warnings up. -/
  bare : ∀ own, l.least = some own → (own.admits e.level && s.level.admits e.level) = true → opened = [] → lines =
    if Level.warning.admits e.level then [⟨.errors, e.bareLine time⟩] else []

theorem IsSetTo.givesLines (h : IsSetTo s opened j) (l : Logger) (time : String) (e : Event) :
    GivesLines s opened l time e (linesOf l j.least j.channels time e) := by
  rw [h.least, h.channels]
  refine ⟨fun hnone ↦ ?early, fun own hown hbelow ↦ ?below, fun own hown hadmits hopened ↦ ?asked,
    fun own hown hadmits hopened ↦ ?bare⟩
  case early =>
    rw [linesOf, hnone]
  case below =>
    rw [linesOf, hown]
    dsimp only
    rw [Option.all_some, hbelow]
    rfl
  case asked =>
    have hsome : (opened.map (channelOf s.level)).isEmpty = false := by
      rwa [List.isEmpty_eq_false_iff, ne_eq, List.map_eq_nil_iff]
    rw [linesOf, hown]
    dsimp only
    rw [Option.all_some, hadmits, hsome, List.filter_map, List.map_map]
    rfl
  case bare =>
    rw [linesOf, hown]
    dsimp only
    rw [Option.all_some, hadmits, hopened]
    rfl

/-- **Every output has its own level, above that of the settings.** At whatever point of whatever is done to a
journal, the outputs in place are those of the latest settings, up to the first that could not be opened, and a logger
that is not bound goes by the level of these settings. An event that happens then is written once to each of the
outputs that asks for its level, unless it is below the level of the settings; nothing else is written, and by nothing
else than events. The path of the log is that of the first file among the latest outputs. -/
theorem writes_to_outputs (start : Journal) (before between : List Change) (s : LogSettings)
    (hlatest : ∀ c ∈ between, c.isConfigure = false) :
    let j := start.run (before ++ .configure s :: between)
    j.logger = ⟨some s.level⟩ ∧ j.file? = (s.outputs.find? fun o ↦ !o.isStream).map LogOutput.destination ∧
      (∀ c : Change, c.isTell = false → (j.change c).written = j.written) ∧
      ∃ opened : List (LogOutput × Target), (∀ x ∈ opened, LeadsTo x.1 x.2) ∧
        (start.run before).OpensUpTo s (opened.map Prod.fst) ∧
        ∀ (l : Logger) (time : String) (e : Event), ∃ lines,
          (j.change (.tell l time e)).written = j.written ++ lines ∧
            GivesLines s opened l time (j.place l e) lines := by
  obtain ⟨opened, hset, -, hleads, hopens⟩ := exists_isSetTo_configure (start.run before) s
  have hrun : IsSetTo s opened (start.run (before ++ .configure s :: between)) := by
    rw [run, List.foldl_append]
    exact hset.run hlatest
  exact ⟨congrArg Logger.mk hrun.least, hrun.file, fun c ↦ written_change, opened, hleads, hopens,
    fun l time e ↦ ⟨_, rfl, hrun.givesLines l time _⟩⟩

/-- One output asks for warnings, and a file for nothing of its own. -/
def twoOutputs : LogSettings :=
  ⟨.info, [⟨.console, errorStream, some .warning⟩, ⟨.json, "/logs/run", none⟩]⟩

/-- During a pass, with these settings in place of others that went to the stream of results, what happened is written
to the file alone, also by a logger that was bound when the settings were others. -/
theorem writes_to_outputs_two :
    let j := (onDisk ⟨[]⟩).run ([.configure ⟨.debug, [⟨.json, resultStream, none⟩]⟩] ++
      .configure twoOutputs :: [.startPass (.str "1")])
    (∀ c ∈ [Change.startPass (.str "1")], c.isConfigure = false) ∧ j.file? = some "/logs/run" ∧
      ∃ target, LeadsTo ⟨.json, "/logs/run", none⟩ target ∧ ∀ l ∈ [j.logger, ⟨some .debug⟩], ∀ time,
        (j.change (.tell l time (.info "a" []))).written
          = j.written ++ [⟨target, (j.place l (.info "a" [])).jsonLine time⟩] := by
  have hlatest : ∀ c ∈ [Change.startPass (.str "1")], c.isConfigure = false := by decide
  obtain ⟨hlogger, hfile, -, opened, hleads, hopens, htold⟩ :=
    writes_to_outputs (onDisk ⟨[]⟩) [.configure ⟨.debug, [⟨.json, resultStream, none⟩]⟩]
      [.startPass (.str "1")] twoOutputs hlatest
  have hall : opened.map Prod.fst = twoOutputs.outputs := by
    rcases hopens with ⟨-, hall⟩ | ⟨f, -, -, hflaw, -⟩
    · exact hall
    · cases hflaw
  obtain ⟨first, rest, rfl, hfirst, hrest⟩ := List.map_eq_cons_iff.mp hall
  obtain ⟨second, rest, rfl, hsecond, hnil⟩ := List.map_eq_cons_iff.mp hrest
  obtain rfl := List.map_eq_nil_iff.mp hnil
  refine ⟨hlatest, hfile, second.2, hsecond ▸ hleads second (by simp), fun l hl time ↦ ?_⟩
  obtain ⟨own, hown, hadmits⟩ : ∃ own, l.least = some own ∧ own.admits .info = true := by
    rcases List.mem_cons.mp hl with rfl | hl
    · exact ⟨.info, congrArg Logger.least hlogger, rfl⟩
    · rw [List.mem_singleton.mp hl]
      exact ⟨.debug, rfl, rfl⟩
  obtain ⟨lines, hwritten, hgives⟩ := htold l time (.info "a" [])
  have hlines := hgives.asked own hown (Bool.and_eq_true_iff.mpr ⟨hadmits, rfl⟩) (List.cons_ne_nil _ _)
  obtain ⟨_, firstTarget⟩ := first
  obtain ⟨_, secondTarget⟩ := second
  subst hfirst hsecond
  rw [hwritten, hlines]
  rfl

/-- **A level of its own does not suffice.** An output that asks for every event gets none that is below the level of
the settings. Where no output asks for anything, a warning is written all the same, and in place of an event that cannot
be written in columns a report, to another stream than that of the output. A logger that was bound with other settings
keeps back what they did, and one that was bound before any settings writes where no output is. -/
theorem writes_nothing_below :
    let all : LogSettings := ⟨.info, [⟨.json, errorStream, some .debug⟩]⟩
    let columns : LogSettings := ⟨.info, [⟨.console, resultStream, none⟩]⟩
    let strict : LogSettings := ⟨.error, []⟩
    let start := onDisk ⟨[]⟩
    let written (s : LogSettings) (l : Logger) (e : Event) :=
      (start.run [.configure s, .tell l "now" e]).written.map Written.target
    let asks (s : LogSettings) (l : Level) := s.outputs.map fun o ↦ (o.level.getD s.level).admits l
    (asks all .debug = [true] ∧ written all ⟨some .info⟩ (.debug "a" []) = []) ∧
      written ⟨.info, []⟩ ⟨some .info⟩ ⟨.warning, .str "a", [], none⟩ = [.errors] ∧
      (asks columns .info = [true] ∧ written columns ⟨some .info⟩ (.info "a" [("stack", .int 5)]) = [.errors]) ∧
      (asks columns .info = [true] ∧ written columns (start.run [.configure strict]).logger (.info "a" []) = []) ∧
      (asks all .info = [true] ∧ written all start.logger (.info "a" []) = [.results]) := by
  decide

end Journal

end RefCheck.Log
