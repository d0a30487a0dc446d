import RefCheck.Cli.Run
import RefCheck.Proofs.Check.Shown
import RefCheck.Proofs.Check.Verdict
import RefCheck.Proofs.Cli.Parsed
import RefCheck.Proofs.Log.Quiet
import RefCheck.Proofs.Model.Located
import RefCheck.Proofs.Settings.Reread

/-!
# A run adds nothing to the pipeline

A run loads settings, lays the options of the call over them, reads the model, lets a pass check it, and shows
the report of the pass. `run_adds_nothing` says that this is all: what is shown is the report that the same
pass gives when it is asked for directly, and the exit code tells whether that report has failed.

Each step has its own reason. The options are laid over check settings that are then read again, which changes
nothing else because settings that were accepted are in a form that reading keeps. The log keeps out of the
results because none of its outputs goes there, and the wish to log all that happens changes a level and
nothing else. Issues lose what only a terminal could make use of; a report as JSON has nothing of the kind,
and it can be read back.
-/

namespace RefCheck

open RefCheck.Log RefCheck.Yaml

/-! ## Texts for readers other than terminals -/

namespace Text

theorem dropColoursFrom_append_line (waiting cs ds : List Char) :
    dropColoursFrom waiting (cs ++ '\n' :: ds) = dropColoursFrom waiting cs ++ '\n' :: dropColours ds := by
  induction cs generalizing waiting with
  | nil =>
    -- the end of a line settles whatever waits
    have hstep : colourStep waiting '\n' = ([], waiting.reverse ++ ['\n']) := by
      rcases waiting with _ | ⟨last, _ | ⟨c, waiting⟩⟩
      · rfl
      · rfl
      · simp [colourStep, escapeChar, isBetween, isParameter, isOrder]
    show dropColoursFrom waiting ('\n' :: ds) = waiting.reverse ++ '\n' :: dropColours ds
    rw [dropColoursFrom, hstep]
    dsimp only
    rw [List.append_assoc]
    rfl
  | cons c cs ih =>
    rw [List.cons_append, dropColoursFrom, dropColoursFrom]
    dsimp only
    rw [ih, List.append_assoc]

end Text

namespace Cli

theorem Outcome.plain_line (line rest : String) :
    Outcome.plain (line ++ "\n" ++ rest) = Outcome.plain line ++ "\n" ++ Outcome.plain rest := by
  have hnewline : ("\n" : String).toList = ['\n'] := rfl
  apply String.toList_inj.mp
  simp only [Outcome.plain, String.toList_append, String.toList_ofList, hnewline, List.append_assoc,
    List.singleton_append]
  exact Text.dropColoursFrom_append_line [] line.toList rest.toList

theorem Outcome.plain_lines (lines : List String) :
    Outcome.plain (String.join (lines.map (· ++ "\n")))
      = String.join (lines.map fun line ↦ Outcome.plain line ++ "\n") := by
  induction lines with
  | nil => rfl
  | cons line lines ih =>
    rw [List.map_cons, List.map_cons, String.join_cons, String.join_cons, plain_line, ih]

theorem Outcome.plain_indented (v : Value) :
    Outcome.plain (Json.indented v ++ "\n") = Json.indented v ++ "\n" := by
  have hnewline : ("\n" : String).toList = ['\n'] := rfl
  have hescape : Text.escapeChar ∉ (Json.indented v ++ "\n").toList := by
    rw [String.toList_append, Json.indented, String.toList_ofList, hnewline, List.mem_append]
    rintro (hmem | hmem)
    · have hplain := Json.isPlain_write .indented 0 v _ hmem
      revert hplain
      decide
    · revert hmem
      decide
  rw [Outcome.plain, Text.dropColours_of_not_mem hescape, String.ofList_toList]

namespace CommandLine

/-- Any issue makes the run fail. -/
def strict (c : CommandLine) : Bool := c.flags.contains .strict

/-- The report is shown as JSON. -/
def json (c : CommandLine) : Bool := c.flags.contains .json

/-- Check settings with the options laid over them: strict if either is, and with the named checks, in the
order of all checks, if any is named. -/
def checks (c : CommandLine) (s : CheckSettings) : CheckSettings where
  strict := s.strict || c.strict
  validators := if c.only.isEmpty then s.validators else Check.all.filter c.only.contains
  excludedPaths := s.excludedPaths

variable (c : CommandLine)

theorem selected_only : Check.selected (c.only.map Check.name) = Check.all.filter c.only.contains := by
  refine List.filter_congr fun check _ ↦ ?_
  rw [Bool.eq_iff_iff, List.contains_iff_mem, List.contains_iff_mem, List.mem_map]
  constructor
  · rintro ⟨check', hmem, hname⟩
    exact Pass.Check.name_injective hname ▸ hmem
  · exact fun hmem ↦ ⟨check, hmem, rfl⟩

/-- **The options lay over check settings what they say.** -/
theorem adjustChecks_request (verbose : Bool) {s : CheckSettings}
    (hs : ∃ chosen : Check → Bool, s.validators = Check.all.filter chosen) :
    (c.request verbose).adjustChecks s = .ok (c.checks s) := by
  obtain ⟨chosen, hchosen⟩ := hs
  have hread : ∀ (b : Bool) (cs : List Check),
      (Settings.readValidation (Settings.validationData b (cs.map Check.name) s.excludedPaths)).toExcept
        = .ok ⟨b, Check.selected (cs.map Check.name), s.excludedPaths⟩ := by
    intro b cs
    rw [Settings.readValidation_validationData b s.excludedPaths (Check.names_subset cs)]
    rfl
  have hkept : Check.selected (s.validators.map Check.name) = s.validators := by
    rw [hchosen, Settings.selected_names_filter]
  unfold Request.adjustChecks
  rw [Settings.ofValue_toValue]
  -- the options say nothing, one thing, or both
  have hrequest : (c.request verbose).strict = c.strict := rfl
  have honly : (c.request verbose).only = c.only.map Check.name := rfl
  rw [Request.overrides, hrequest, honly, checks]
  have hselected := c.selected_only
  generalize c.only = only at hselected ⊢
  cases hstrict : c.strict with
  | false =>
    cases only with
    | nil =>
      rw [Bool.or_false]
      rfl
    | cons check only =>
      rw [Bool.or_false, ← hselected]
      exact hread s.strict (check :: only)
  | true =>
    cases only with
    | nil =>
      rw [Bool.or_true]
      exact (hread true s.validators).trans (by rw [hkept]; rfl)
    | cons check only =>
      rw [Bool.or_true, ← hselected]
      exact hread true (check :: only)

/-- Log settings with the wish to log all that happens, if there is one. -/
def logging (verbose : Bool) (s : LogSettings) : LogSettings :=
  if verbose then { s with level := .debug } else s

/-! ## What the run makes use of -/

/-- The settings of the run before options are laid over them. -/
def settings (w : World) : Except Fault Settings := Settings.load (sources w (c.request false))

/-- The model in the file that the call names. -/
def model (w : World) : Except Fault Model :=
  let path := (Path.ofString c.project).text
  (Model.ofFile path (w.disk.bytes? w.surroundings.here path)).result

/-- No text in the model file that the call names holds half of a pair of units alone. Such a half is no character:
it cannot be printed, and no text of a model can hold it. -/
def spellsModel (w : World) : Bool :=
  (w.disk.bytes? w.surroundings.here (Path.ofString c.project).text).all fun bytes ↦
    (Utf8.decode bytes).toOption.all fun text ↦ Json.spellsCharacters (Text.unifyBreaks text)

/-- The file that the call names is read as this model, and spells characters. -/
structure Reads (w : World) (m : Model) : Prop where
  spelled : c.spellsModel w = true
  model : c.model w = .ok m

/-- The report of a pass with the settings and the options over them. -/
def report (w : World) (s : Settings) (m : Model) : Except Fault Report :=
  (Pass.run m (c.checks s.validation).plan w.pass w.duration).result

/-- The outputs of settings can all be opened. -/
def CanLog (w : World) (s : LogSettings) : Prop := ((Journal.onDisk w.disk).configure s).2 = none

variable {c} {w : World} {s : Settings}

theorem run_arguments (hc : c.IsFor w.surroundings) (verbose : Bool) :
    run w (c.arguments verbose) = (c.request verbose).run w (Journal.onDisk w.disk) := by
  rw [run, c.ofArguments_arguments hc]

/-- The run goes on with what the options make of the settings. -/
theorem run_of_settings (hc : c.IsFor w.surroundings) (hs : c.settings w = .ok s) (verbose : Bool) :
    run w (c.arguments verbose)
      = runWith w (c.request verbose) ⟨logging verbose s.logging, c.checks s.validation⟩
          (Journal.onDisk w.disk) := by
  obtain ⟨entries, -, hread⟩ := Settings.load_eq_ok_iff.mp hs
  -- accepted settings are in the form that is kept when they are read with the options over them
  have hadjust : (c.request verbose).adjust s
      = .ok ⟨logging verbose s.logging, c.checks s.validation⟩ := by
    rw [Request.adjust, c.adjustChecks_request verbose (Settings.isNormal_of_readExactly hread).validators]
    rfl
  have hload : Settings.load (sources w (c.request verbose)) = .ok s := hs
  rw [run_arguments hc, Request.run, hload]
  dsimp only [bind, Except.bind]
  rw [hadjust]

theorem configure_logging_snd (j : Journal) (verbose : Bool) (s : LogSettings) :
    (j.configure (logging verbose s)).2 = (j.configure s).2 := by
  cases verbose with
  | false => rfl
  | true => exact j.configure_snd_eq .debug s.level s.outputs

theorem outputs_logging (verbose : Bool) (s : LogSettings) : (logging verbose s).outputs = s.outputs := by
  cases verbose <;> rfl

/-! ## Checking a model -/

variable {m : Model} {report : Report} {j : Journal}

/-- The report says with which settings it came about. -/
theorem report_facts (hreport : c.report w s m = .ok report) :
    report.strict = .bool (c.checks s.validation).strict ∧
      report.summary = toString report.issues.length ++ " issue(s) found by " ++
        ", ".intercalate ((c.checks s.validation).validators.map Check.name) ++ "." := by
  obtain ⟨cs, -, -, rfl⟩ := Pass.result_run_eq_ok_iff.mp hreport
  have hnames : ((c.checks s.validation).plan.validators).map Value.display
      = (c.checks s.validation).validators.map Check.name := by
    rw [CheckSettings.plan, CheckSettings.validatorNames, List.map_map, List.map_map]
    rfl
  exact ⟨rfl, by rw [Report.summary, hnames]⟩

/-- A model that is read and checked has its report shown; the log stays out of the results if it was. -/
theorem exists_checkModel (hj : j.IsQuiet) (hm : c.model w = .ok m) (hreport : c.report w s m = .ok report)
    (verbose : Bool) : ∃ j' : Journal, j'.IsQuiet ∧
      checkModel w (c.request verbose) (c.checks s.validation) j
        = ⟨if report.failed then 1 else 0, reportText m c.json report, "", none, j'⟩ := by
  have hloaded : (Model.ofFile (Path.ofString (c.request verbose).project).text
      (w.disk.bytes? w.surroundings.here (Path.ofString (c.request verbose).project).text)).result
        = .ok m := hm
  have hchecked : (Pass.run m (c.checks s.validation).plan w.pass w.duration).result = .ok report := hreport
  unfold checkModel
  dsimp only
  rw [hloaded]
  dsimp only
  rw [hchecked]
  exact ⟨_, (hj.tellAll w.time _).actAll w.time _, rfl⟩

/-- **What the run comes to** where settings are loaded, the log can be opened, and model and report are
there. -/
theorem exists_run_eq (hc : c.IsFor w.surroundings) (hs : c.settings w = .ok s)
    (houtputs : ∀ o ∈ s.logging.outputs, o.destination ≠ resultStream) (hlog : CanLog w s.logging)
    (hm : c.model w = .ok m) (hreport : c.report w s m = .ok report) (verbose : Bool) :
    ∃ j : Journal, j.IsQuiet ∧ run w (c.arguments verbose)
      = ⟨if report.failed then 1 else 0, reportText m c.json report, "", none, j⟩ := by
  have hquiet : ((Journal.onDisk w.disk).configure (logging verbose s.logging)).1.IsQuiet := by
    refine Journal.isQuiet_configure rfl ?_
    rwa [outputs_logging]
  have hopened : ((Journal.onDisk w.disk).configure (logging verbose s.logging)).2 = none := by
    rw [configure_logging_snd]
    exact hlog
  obtain ⟨j, hj, hchecked⟩ := exists_checkModel hquiet hm hreport verbose
  refine ⟨j, hj, ?_⟩
  rw [run_of_settings hc hs, runWith, ← hchecked]
  dsimp only
  generalize (Journal.onDisk w.disk).configure (logging verbose s.logging) = configured at hopened ⊢
  obtain ⟨k, flaw⟩ := configured
  cases hopened
  rfl

/-- A problem with the model file makes the run fail without a report. -/
theorem checkModel_of_problem {p : Problem} (hp : c.model w = .error (.problem p)) (checks : CheckSettings)
    (j : Journal) (verbose : Bool) : (checkModel w (c.request verbose) checks j).exit = 1 ∧
      (checkModel w (c.request verbose) checks j).out = "" := by
  have hloaded : (Model.ofFile (Path.ofString (c.request verbose).project).text
      (w.disk.bytes? w.surroundings.here (Path.ofString (c.request verbose).project).text)).result
        = .error (.problem p) := hp
  unfold checkModel
  dsimp only
  rw [hloaded]
  exact ⟨rfl, rfl⟩

end CommandLine

/-- What is shown is all that goes to the results if the log stays out of them. -/
theorem Outcome.output_eq {o : Outcome} (h : o.journal.IsQuiet) : o.output = Outcome.plain o.out := by
  rw [Outcome.output, h.results]
  exact String.empty_append

/-- **A run adds nothing to the pipeline.** Settings are loaded, their log can be opened and stays out of the
results, a model is read from a file that spells characters, and a pass over it has a report. Then the run ends,
it fails exactly if the pass is strict and there is an issue, and it shows the issues in order and a summary, or
JSON that decodes to the report up to the duration. The settings of the pass are those that were loaded with the
options over them, and the wish to log all that happens plays no part. A problem with the settings or with the
model makes the run fail without a report. -/
theorem run_adds_nothing (c : CommandLine) (w : World) (hc : c.IsFor w.surroundings) :
    (∀ s m report, c.settings w = .ok s → (∀ o ∈ s.logging.outputs, o.destination ≠ resultStream) →
      CommandLine.CanLog w s.logging → c.Reads w m → c.report w s m = .ok report →
      ∀ verbose, (run w (c.arguments verbose)).crash = none ∧
        (run w (c.arguments verbose)).exit
          = (if (c.checks s.validation).strict = true ∧ report.issues ≠ [] then 1 else 0) ∧
        (c.json = false → (run w (c.arguments verbose)).output
          = String.join ((report.issues.map (Issue.text m) ++
              [toString report.issues.length ++ " issue(s) found by " ++
                ", ".intercalate ((c.checks s.validation).validators.map Check.name) ++ "."]).map
              fun line ↦ Outcome.plain line ++ "\n")) ∧
        (c.json = true → (run w (c.arguments verbose)).output = Json.indented (report.toValue m) ++ "\n" ∧
          Json.decode (run w (c.arguments verbose)).output.toList
            = .ok ((report.withDuration (Json.reread report.duration)).toValue m))) ∧
    (∀ p, c.settings w = .error (.problem p) → ∀ verbose, (run w (c.arguments verbose)).exit = 1 ∧
      (run w (c.arguments verbose)).output = "") ∧
    (∀ s p, c.settings w = .ok s → c.model w = .error (.problem p) → ∀ verbose,
      (run w (c.arguments verbose)).exit = 1 ∧ (run w (c.arguments verbose)).out = "") := by
  refine ⟨fun s m report hs houtputs hlog hm hreport verbose ↦ ?_, fun p hp verbose ↦ ?_,
    fun s p hs hp verbose ↦ ?_⟩
  · obtain ⟨j, hj, hrun⟩ := CommandLine.exists_run_eq hc hs houtputs hlog hm.model hreport verbose
    obtain ⟨hstrict, hsummary⟩ := CommandLine.report_facts hreport
    rw [hrun, Outcome.output_eq hj]
    refine ⟨rfl, ?_, fun hjson ↦ ?_, fun hjson ↦ ?_⟩
    · exact ite_cond_congr (propext (Pass.failed_eq_true_iff hstrict))
    · dsimp only
      rw [reportText, hjson, if_neg Bool.false_ne_true, Outcome.plain_lines, hsummary]
    · have hofChecks : report.IsOfChecks := Report.isOfChecks_of_run rfl hreport
      have hlines : m.HasShortLines := fun _ _ hsource ↦ Model.isShort_line_of_ofFile hm.model hsource
      dsimp only
      rw [reportText, hjson, if_pos rfl, Outcome.plain_indented]
      exact ⟨rfl, Report.decode_toValue hofChecks hlines⟩
  · have hload : Settings.load (sources w (c.request verbose)) = .error (.problem p) := hp
    rw [CommandLine.run_arguments hc, Request.run, hload]
    exact ⟨rfl, rfl⟩
  · rw [CommandLine.run_of_settings hc hs, runWith]
    dsimp only
    rcases (Journal.onDisk w.disk).configure (CommandLine.logging verbose s.logging) with ⟨j, _ | f⟩
    · exact CommandLine.checkModel_of_problem hp _ j verbose
    · exact ⟨rfl, rfl⟩

/-! ## Runs over small disks -/

/-- A directory with some files, which is that of the caller; there is nothing else. -/
def worldHolding (files : List (String × List Char)) : World where
  disk := ⟨(["w"], .directory) :: files.map fun f ↦ (["w", f.1], .file (f.2.flatMap String.utf8EncodeChar))⟩
  directory := "/w"
  environment := []
  homes := ⟨"/", []⟩
  userFile := "/config.yaml"
  complaint := fun _ ↦ ""
  time := ""
  pass := ""
  duration := Report.empty.duration

/-- A strict call that names the checks of links and of references, the latter twice. -/
def strictLine : CommandLine :=
  ⟨[.strict, .only .links .apart], "model.json", [.only .see .glued, .only .see .apart]⟩

/-- A directory with a model that links to what is not there. -/
def linkingWorld : World :=
  worldHolding [("model.json", Json.write .line 0 (Pass.fileLinking 2 "module:x~Y"))]

theorem isFor_strictLine : strictLine.IsFor linkingWorld.surroundings := by
  refine ⟨by decide, Fault.toOption_eq_some_iff.mp (by decide +kernel), fun path hpath ↦ ?_⟩
  cases hpath

/-- The strict run over it fails. The issue is shown, and the checks that were run, each once. -/
theorem run_strictLine : strictLine.IsFor linkingWorld.surroundings ∧ ∀ verbose,
    (run linkingWorld (strictLine.arguments verbose)).exit = 1 ∧
      (run linkingWorld (strictLine.arguments verbose)).output
        = "Target doclet for \"module:x~Y\" identifier is not found (a.ts:1).\n" ++
          "1 issue(s) found by see, links.\n" := by
  have hsettings : strictLine.settings linkingWorld = .ok .standard :=
    Fault.toOption_eq_some_iff.mp (by decide +kernel)
  have hlog : CommandLine.CanLog linkingWorld Settings.standard.logging := by
    rw [CommandLine.CanLog]
    decide +kernel
  have hpass : ((strictLine.model linkingWorld).toOption.bind fun m ↦
      (strictLine.report linkingWorld .standard m).toOption.map fun report ↦
        report.issues.map (Issue.text m))
      = some ["Target doclet for \"module:x~Y\" identifier is not found (a.ts:1)."] := by decide +kernel
  obtain ⟨m, hm, hreport⟩ := Option.bind_eq_some_iff.mp hpass
  obtain ⟨report, hreport, htexts⟩ := Option.map_eq_some_iff.mp hreport
  have hlength : report.issues.length = 1 := by
    rw [← List.length_map (f := Issue.text m), htexts]
    rfl
  refine ⟨isFor_strictLine, fun verbose ↦ ?_⟩
  obtain ⟨-, hexit, htext, -⟩ := (run_adds_nothing strictLine linkingWorld isFor_strictLine).1
    .standard m report hsettings (by decide) hlog ⟨by decide +kernel, Fault.toOption_eq_some_iff.mp hm⟩
    (Fault.toOption_eq_some_iff.mp hreport) verbose
  constructor
  · rw [hexit, if_pos]
    refine ⟨rfl, fun hnil ↦ ?_⟩
    rw [hnil] at hlength
    cases hlength
  · rw [htext (by decide), htexts, hlength]
    decide +kernel

/-- A call without options. -/
def plainLine : CommandLine := ⟨[], "model.json", []⟩

theorem isFor_plainLine {w : World}
    (h : (Call.checkPath w.surroundings projectArgument .file "model.json").toOption = some ()) :
    plainLine.IsFor w.surroundings := by
  refine ⟨by decide, Fault.toOption_eq_some_iff.mp h, fun path hpath ↦ ?_⟩
  cases hpath

/-- A directory with a model without declarations, and with settings that want the log where a directory is.
-/
def unloggedWorld : World :=
  worldHolding [("model.json", Json.write .line 0 (.obj [("children", .arr [])])),
    (".docxref.yaml", "logging:\n  outputs:\n    - destination: /\n".toList)]

/-- What these settings come to. -/
def unloggedSettings : Settings := ⟨⟨.info, [⟨.console, "/", none⟩]⟩, .standard⟩

/-- A directory with a model whose link sets a colour. -/
def colouredWorld : World :=
  worldHolding [("model.json", Json.write .line 0 (Pass.fileLinking 2 "~\x1b[1mX"))]

/-- Where the log cannot be opened the run fails without a word, although nothing is wrong with the model. And
what sets a colour in an issue is not shown. -/
theorem run_withholds :
    (plainLine.IsFor unloggedWorld.surroundings ∧ ∃ s m report,
      plainLine.settings unloggedWorld = .ok s ∧ (∀ o ∈ s.logging.outputs, o.destination ≠ resultStream) ∧
      plainLine.model unloggedWorld = .ok m ∧ plainLine.report unloggedWorld s m = .ok report ∧
      report.issues = [] ∧ (run unloggedWorld (plainLine.arguments false)).crash.isSome = true ∧
      (run unloggedWorld (plainLine.arguments false)).exit = 1 ∧
      (run unloggedWorld (plainLine.arguments false)).output = "") ∧
    (plainLine.IsFor colouredWorld.surroundings ∧ ∃ s m report,
      plainLine.settings colouredWorld = .ok s ∧ (∀ o ∈ s.logging.outputs, o.destination ≠ resultStream) ∧
      plainLine.model colouredWorld = .ok m ∧ plainLine.report colouredWorld s m = .ok report ∧
      (run colouredWorld (plainLine.arguments false)).output
        ≠ String.join ((report.issues.map (Issue.text m) ++ [report.summary]).map (· ++ "\n"))) := by
  constructor
  · have hsettings : plainLine.settings unloggedWorld = .ok unloggedSettings :=
      Fault.toOption_eq_some_iff.mp (by decide +kernel)
    have hpass : ((plainLine.model unloggedWorld).toOption.bind fun m ↦
        (plainLine.report unloggedWorld unloggedSettings m).toOption.map fun report ↦
          report.issues.length) = some 0 := by decide +kernel
    obtain ⟨m, hm, hreport⟩ := Option.bind_eq_some_iff.mp hpass
    obtain ⟨report, hreport, hlength⟩ := Option.map_eq_some_iff.mp hreport
    refine ⟨isFor_plainLine (by decide +kernel), unloggedSettings, m, report, hsettings, by decide,
      Fault.toOption_eq_some_iff.mp hm, Fault.toOption_eq_some_iff.mp hreport,
      List.eq_nil_of_length_eq_zero hlength, ?_⟩
    decide +kernel
  · have hsettings : plainLine.settings colouredWorld = .ok .standard :=
      Fault.toOption_eq_some_iff.mp (by decide +kernel)
    have hpass : ((plainLine.model colouredWorld).toOption.bind fun m ↦
        (plainLine.report colouredWorld .standard m).toOption.map fun report ↦
          (report.issues.map (Issue.text m), report.summary))
        = some (["Target doclet for \"~\x1b[1mX\" identifier is not found (a.ts:1)."],
          "1 issue(s) found by overloads, see, links, fires.") := by decide +kernel
    obtain ⟨m, hm, hreport⟩ := Option.bind_eq_some_iff.mp hpass
    obtain ⟨report, hreport, htexts⟩ := Option.map_eq_some_iff.mp hreport
    obtain ⟨hissues, hsummary⟩ := Prod.mk.inj htexts
    refine ⟨isFor_plainLine (by decide +kernel), .standard, m, report, hsettings, by decide,
      Fault.toOption_eq_some_iff.mp hm, Fault.toOption_eq_some_iff.mp hreport, ?_⟩
    rw [hissues, hsummary]
    decide +kernel

end Cli

end RefCheck
