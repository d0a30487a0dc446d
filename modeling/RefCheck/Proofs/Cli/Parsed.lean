import RefCheck.Cli.Request
import RefCheck.Fault.Basic

/-!
# Calls that check a model

A call of the command names a model file, with any options before and after it: `CommandLine`. Every such call
is read as the request that it makes, if the file and the directory that it names are there
(`CommandLine.ofArguments_arguments`).

The value of an option may be an argument of its own or follow an equals sign. Both are read alike, so the
proof goes option by option and asks of each only which switch it is and which value it gives.
-/

namespace RefCheck.Cli

/-- How the value of an option is given. -/
inductive Given where
  /-- As the next argument. -/
  | apart
  /-- After an equals sign. -/
  | glued
  deriving DecidableEq, Repr, Inhabited

/-- An option of the command that checks a model. -/
inductive Flag where
  /-- Any issue makes the run fail. -/
  | strict
  /-- A check to run. -/
  | only (c : Check) (given : Given)
  /-- The report is shown as JSON. -/
  | json
  /-- Where the settings of the project are. -/
  | configDir (path : String) (given : Given)
  deriving DecidableEq, Repr, Inhabited

namespace Flag

/-- The switch of the option and its value. -/
def option : Flag → Switch × String
  | strict => (.strict, "")
  | only c _ => (.only, c.name)
  | json => (.json, "")
  | configDir path _ => (.configDir, path)

/-- The arguments that give a switch with a value. -/
def argsWith (s : Switch) (value : String) : Given → List String
  | .apart => [s.name, value]
  | .glued => [s.name ++ "=" ++ value]

/-- The arguments of the option. -/
def args : Flag → List String
  | strict => [Switch.strict.name]
  | only c given => argsWith .only c.name given
  | json => [Switch.json.name]
  | configDir path given => argsWith .configDir path given

/-- The check that the option names. -/
def check? : Flag → Option Check
  | only c _ => some c
  | _ => none

/-- The directory that the option names. -/
def directory? : Flag → Option String
  | configDir path _ => some path
  | _ => none

end Flag

/-- A call of the command: options, a model file, and more options. -/
structure CommandLine where
  /-- The options before the file. -/
  before : List Flag
  /-- The path of the model file. -/
  project : String
  /-- The options after the file. -/
  after : List Flag
  deriving DecidableEq, Repr, Inhabited

namespace CommandLine

/-- All options, in order. -/
def flags (c : CommandLine) : List Flag := c.before ++ c.after

/-- The checks that are named, in order and as often as they are. -/
def only (c : CommandLine) : List Check := c.flags.filterMap Flag.check?

/-- The directory of the settings: the last that is named. -/
def configDir? (c : CommandLine) : Option String := (c.flags.filterMap Flag.directory?).getLast?

/-- The arguments of the call, with or without the wish to log all that happens. -/
def arguments (c : CommandLine) (verbose : Bool) : List String :=
  (if verbose then ["-v"] else []) ++ validateName ::
    (c.before.flatMap Flag.args ++ c.project :: c.after.flatMap Flag.args)

/-- What is read of the call: all options, and the file as the only word. -/
def read (c : CommandLine) : Arguments := ⟨c.flags.map Flag.option, [c.project]⟩

/-- The request that the call makes. -/
def request (c : CommandLine) (verbose : Bool) : Request where
  verbose
  project := c.project
  strict := c.flags.contains .strict
  only := c.only.map Check.name
  asJson := c.flags.contains .json
  configDir := c.configDir?

/-- What the call names is there. -/
structure IsFor (c : CommandLine) (s : Surroundings) : Prop where
  word : Arguments.isOption c.project = false
  project : Call.checkPath s projectArgument .file c.project = .ok ()
  directory : ∀ path ∈ c.configDir?, Call.checkPath s Switch.configDir.name .directory path = .ok ()

end CommandLine

/-! ## Options and words -/

namespace Arguments

variable {known : List Switch} {rest : List String} {a : Arguments}

theorem toList_glued (s : Switch) (value : String) :
    (s.name ++ "=" ++ value).toList = s.name.toList ++ '=' :: value.toList := by
  rw [String.toList_append, String.toList_append, List.append_assoc]
  rfl

theorem cutValue_glued {s : Switch} (value : String) :
    cutValue (s.name ++ "=" ++ value) = (s.name, some value) := by
  have hcut : ∀ cs, Text.cutAt '=' (s.name.toList ++ '=' :: cs) = (s.name.toList, some cs) := by
    intro cs
    cases s <;> rfl
  rw [cutValue, toList_glued, hcut]
  simp

/-- The name of a switch is that of an option, without a value, and of no other. -/
theorem name_facts {s : Switch} (hs : s ∈ Switch.ofScope .validate) : s.name ≠ "--" ∧
    isOption s.name = true ∧ cutValue s.name = (s.name, none) ∧
    ((Switch.ofScope .validate).find? fun t ↦ t.name == s.name) = some s := by
  revert hs
  revert s
  decide

theorem read_switch {s : Switch} (hs : s ∈ Switch.ofScope .validate) (hvalue : s.takesValue = false)
    (h : read (Switch.ofScope .validate) true rest = .ok a) :
    read (Switch.ofScope .validate) true (s.name :: rest) = .ok (a.withOptions [(s, "")]) := by
  obtain ⟨hne, hoption, hcut, hfind⟩ := name_facts hs
  simp only [read, hne, if_false, hoption, Bool.not_true, Bool.false_eq_true, hcut, hfind, hvalue, h]
  rfl

theorem read_apart {s : Switch} (hs : s ∈ Switch.ofScope .validate) (hvalue : s.takesValue = true)
    (value : String) (h : read (Switch.ofScope .validate) true rest = .ok a) :
    read (Switch.ofScope .validate) true (s.name :: value :: rest)
      = .ok (a.withOptions [(s, value)]) := by
  obtain ⟨hne, hoption, hcut, hfind⟩ := name_facts hs
  rw [read]
  simp only [hne, if_false, hoption, Bool.not_true, Bool.false_eq_true, hcut, hfind, hvalue, if_true, h]
  rfl

theorem read_glued {s : Switch} (hs : s ∈ Switch.ofScope .validate) (hvalue : s.takesValue = true)
    (value : String) (h : read (Switch.ofScope .validate) true rest = .ok a) :
    read (Switch.ofScope .validate) true ((s.name ++ "=" ++ value) :: rest)
      = .ok (a.withOptions [(s, value)]) := by
  obtain ⟨-, -, -, hfind⟩ := name_facts hs
  obtain ⟨c, cs, hhead⟩ : ∃ c cs, (s.name ++ "=" ++ value).toList = '-' :: '-' :: c :: cs := by
    rw [toList_glued]
    cases s <;> exact ⟨_, _, rfl⟩
  have hoption : isOption (s.name ++ "=" ++ value) = true := by
    rw [isOption, hhead]
    rfl
  have hne : s.name ++ "=" ++ value ≠ "--" := by
    intro heq
    rw [heq] at hhead
    cases hhead
  rw [read]
  simp only [hne, if_false, hoption, Bool.not_true, Bool.false_eq_true, cutValue_glued, hfind, hvalue,
    if_true, h]
  rfl

/-- An option is read before whatever follows it. -/
theorem read_args (f : Flag) (h : read (Switch.ofScope .validate) true rest = .ok a) :
    read (Switch.ofScope .validate) true (f.args ++ rest) = .ok (a.withOptions [f.option]) := by
  have hwith : ∀ {s : Switch}, s ∈ Switch.ofScope .validate → s.takesValue = true →
      ∀ (value : String) (given : Given), read (Switch.ofScope .validate) true
        (Flag.argsWith s value given ++ rest) = .ok (a.withOptions [(s, value)]) := by
    intro s hs hvalue value given
    cases given with
    | apart => exact read_apart hs hvalue value h
    | glued => exact read_glued hs hvalue value h
  cases f with
  | strict => exact read_switch (by decide) rfl h
  | json => exact read_switch (by decide) rfl h
  | only c given => exact hwith (by decide) rfl c.name given
  | configDir path given => exact hwith (by decide) rfl path given

theorem read_flags (flags : List Flag) (h : read (Switch.ofScope .validate) true rest = .ok a) :
    read (Switch.ofScope .validate) true (flags.flatMap Flag.args ++ rest)
      = .ok (a.withOptions (flags.map Flag.option)) := by
  induction flags with
  | nil => exact h
  | cons f flags ih =>
    rw [List.flatMap_cons, List.append_assoc, read_args f ih]
    rfl

/-- The command is named after the options of the program. -/
theorem ofList_program_verbose (rest : List String) :
    ofList .program ("-v" :: validateName :: rest) = .ok ⟨[(.verbose, "")], validateName :: rest⟩ := by
  -- a single dash, so the letters after it are looked up one by one
  have hlong : "-v".startsWith "--" = false :=
    String.startsWith_string_eq_false_iff.mpr (by decide)
  have hoption : isOption "-v" = true := by decide
  have hcut : cutValue "-v" = ("-v", none) := by decide
  have hshort : shortOptions (Switch.ofScope .program) ("-v".toList.drop 1) = .ok [(.verbose, "")] := rfl
  have hfind : ((Switch.ofScope .program).find? fun s ↦ s.name == "-v") = none := by decide
  have hcommand : read (Switch.ofScope .program) false (validateName :: rest)
      = .ok ⟨[], validateName :: rest⟩ := rfl
  have hprogram : ((Scope.program == .validate) : Bool) = false := rfl
  rw [ofList, hprogram, read]
  simp only [hlong, hoption, hcut, hshort, hfind, hcommand]
  rfl

theorem read_word {word : String} (hword : isOption word = false)
    (h : read (Switch.ofScope .validate) true rest = .ok a) :
    read (Switch.ofScope .validate) true (word :: rest) = .ok (a.withWord word) := by
  have hne : word ≠ "--" := by
    rintro rfl
    cases hword
  rw [read]
  simp only [hne, if_false, hword, Bool.not_false, if_true, h]
  rfl

end Arguments

namespace CommandLine

variable (c : CommandLine)

/-- **The arguments of a call are read as its options and its file.** -/
theorem ofList_arguments (hword : Arguments.isOption c.project = false) :
    Arguments.ofList .validate (c.before.flatMap Flag.args ++ c.project :: c.after.flatMap Flag.args)
      = .ok c.read := by
  have hnothing : Arguments.read (Switch.ofScope .validate) true [] = .ok ⟨[], []⟩ := rfl
  have hafter := Arguments.read_flags c.after hnothing
  rw [List.append_nil] at hafter
  have hread := Arguments.read_flags c.before (Arguments.read_word hword hafter)
  rw [Arguments.ofList]
  refine Eq.trans hread ?_
  simp [Arguments.withOptions, Arguments.withWord, CommandLine.read, flags]

theorem has_read (s : Switch) : c.read.has s = c.flags.any fun f ↦ f.option.1 == s := by
  rw [Arguments.has, CommandLine.read, List.any_map]
  rfl

theorem has_read_flag {s : Switch} {flag : Flag} (h : ∀ f : Flag, (f.option.1 == s) = (flag == f)) :
    c.read.has s = c.flags.contains flag := by
  rw [has_read, List.contains_eq_any_beq]
  exact congrArg c.flags.any (funext h)

theorem values_only : c.read.values .only = c.only.map Check.name := by
  have hflags : ∀ flags : List Flag,
      ((flags.map Flag.option).filter fun o ↦ o.1 == Switch.only).map Prod.snd
        = (flags.filterMap Flag.check?).map Check.name := by
    intro flags
    induction flags with
    | nil => rfl
    | cons f flags ih => cases f <;> simp [Flag.option, Flag.check?, List.filterMap_cons, ih]
  exact hflags c.flags

theorem values_configDir : c.read.values .configDir = c.flags.filterMap Flag.directory? := by
  have hflags : ∀ flags : List Flag,
      ((flags.map Flag.option).filter fun o ↦ o.1 == Switch.configDir).map Prod.snd
        = flags.filterMap Flag.directory? := by
    intro flags
    induction flags with
    | nil => rfl
    | cons f flags ih => cases f <;> simp [Flag.option, Flag.directory?, List.filterMap_cons, ih]
  exact hflags c.flags

/-- No option of the call is a wrong one. -/
theorem checkOption_read {s : Surroundings} (h : c.IsFor s) (switch : Switch) :
    Call.checkOption s c.read switch = .ok () := by
  cases switch with
  | only =>
    have hnone : (c.only.map Check.name).find? (fun v ↦ !Check.names.contains v) = none := by
      rw [List.find?_eq_none]
      intro name hname
      simpa using Check.names_subset c.only name hname
    rw [Call.checkOption, values_only, hnone]
  | configDir =>
    rw [Call.checkOption, values_configDir]
    cases hlast : (c.flags.filterMap Flag.directory?).getLast? with
    | none => rfl
    | some path => exact h.directory path hlast
  | version | verbose | strict | json | help => rfl

theorem requestOf_read {s : Surroundings} (h : c.IsFor s) (verbose : Bool) :
    Call.requestOf s verbose c.read = .ok (c.request verbose) := by
  have hoptions : ∀ switches : List Switch, switches.forM (Call.checkOption s c.read) = .ok () := by
    intro switches
    induction switches with
    | nil => rfl
    | cons switch switches ih =>
      rw [List.forM, c.checkOption_read h]
      exact ih
  have hstrict : c.read.has .strict = c.flags.contains .strict :=
    c.has_read_flag fun f ↦ by cases f <;> rfl
  have hjson : c.read.has .json = c.flags.contains .json :=
    c.has_read_flag fun f ↦ by cases f <;> rfl
  have hwords : c.read.words = [c.project] := rfl
  rw [Call.requestOf, hoptions, hwords, hstrict, hjson, values_only, values_configDir]
  dsimp only [bind, Except.bind]
  rw [h.project]
  rfl

/-- **A call that names what is there makes its request.** -/
theorem ofArguments_arguments {s : Surroundings} (h : c.IsFor s) (verbose : Bool) :
    Call.ofArguments s (c.arguments verbose) = .request (c.request verbose) := by
  have hcommand : ∀ verbose, Call.ofCommand s verbose
      (c.before.flatMap Flag.args ++ c.project :: c.after.flatMap Flag.args)
        = .request (c.request verbose) := by
    intro verbose
    have hhelp : c.read.has .help = false := by
      rw [has_read, List.any_eq_false]
      intro f _
      cases f <;> exact Bool.false_ne_true
    rw [Call.ofCommand, c.ofList_arguments h.word]
    dsimp only
    rw [hhelp, c.requestOf_read h]
    rfl
  cases verbose with
  | false => exact hcommand false
  | true =>
    rw [Call.ofArguments, arguments, if_pos rfl]
    dsimp only [List.cons_append, List.nil_append]
    rw [Arguments.ofList_program_verbose]
    exact hcommand true

end CommandLine

end RefCheck.Cli
