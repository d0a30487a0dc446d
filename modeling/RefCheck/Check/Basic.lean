import RefCheck.Comment.Mention
import RefCheck.Index.Resolve
import RefCheck.Model.Origin
import RefCheck.Trace

/-!
# Checks

A check goes over the declarations of the project itself and reports issues: a message and the reflection
that it is about. There are four checks, in a fixed order; each has a name by which settings select it.

A check is a trace. Its steps are the issues, and what a log tells in between.
-/

namespace RefCheck

open RefCheck.Log

/-- The checks. -/
inductive Check where
  /-- Every signature of an overloaded member has a label. -/
  | overloads
  /-- What `@see` tags mention exists. -/
  | see
  /-- What inline links mention exists. -/
  | links
  /-- What `@fires` tags mention exists. -/
  | fires
  deriving DecidableEq, Repr, Inhabited

namespace Check

/-- Every check, in the order in which they run. -/
def all : List Check := [overloads, see, links, fires]

/-- The name of a check. -/
def name : Check → String
  | overloads => "overloads"
  | see => "see"
  | links => "links"
  | fires => "fires"

/-- The names of all checks. -/
def names : List String := all.map name

theorem names_subset (cs : List Check) : ∀ n ∈ cs.map name, n ∈ names := by
  intro n hn
  obtain ⟨c, -, rfl⟩ := List.mem_map.mp hn
  exact List.mem_map_of_mem (by cases c <;> decide)

/-- The check of this name. -/
def ofName? (s : String) : Option Check := all.find? fun c => c.name == s

/-- The check that a value names, if any does. Arrays and objects cannot be looked up. -/
def named? : Value → Except Fault (Option Check)
  | .str s => .ok (ofName? s)
  | .arr _ | .obj _ => .error (.misshapen .notAName)
  | _ => .ok none

/-- The check that a value has to name. -/
def ofValue (v : Value) : Except Fault Check := do
  match ← named? v with
  | some c => return c
  | none => .error (.misshapen (.missingEntry v.display))

theorem ofName?_name (c : Check) : ofName? c.name = some c := by
  cases c <;> decide

/-- A step of a check. -/
inductive Step where
  /-- Something is wrong with a reflection. -/
  | issue (message : String) (reflection : Handle)
  /-- A log tells this. -/
  | note (event : Event)
  deriving Inhabited, Repr

/-- The message and reflection of an issue. -/
def Step.issue? : Step → Option (String × Handle)
  | issue message reflection => some (message, reflection)
  | note _ => none

/-- The comments of a reflection: its own, and those of its signatures. -/
def ownedComments (m : Model) (h : Handle) : List (Handle × Comment) :=
  (h :: (m.get h).signatures).filterMap fun owner =>
    (m.get owner).comment.map fun c => (owner, c)

/-- The trace of a test of every declaration of the project itself that meets a mask. -/
def forOwn (m : Model) (mask : Kind) (excluded : Excluded) (test : Handle → Trace Step) :
    Trace Step :=
  .ofResult (m.ownOfKind mask excluded) fun hs => .forEach hs test

/-- An issue with a reflection. It is told with the place of the reflection, so there has to be an end to the
way there. -/
def accuse (m : Model) (message : String) (h : Handle) : Trace Step :=
  if m.isLost h then .stop .endless else .step (.issue message h)

/-- An issue unless a reference resolves. -/
def expectTarget (ix : Index) (m : Model) (r : Reference) (owner : Handle) (message : String) :
    Trace Step :=
  (Trace.ofList ((Index.resolveEvents m r owner).map .note)).andThen
    (if (ix.resolve? m r owner).isNone then accuse m message owner else .nothing)

/-! ## Overloads -/

/-- What can be overloaded. -/
def overloadable : Kind := Kind.method.or .function

/-- A signature lacks its label. -/
def missingLabel : String := "Missing \"" ++ labelTag ++ "\" tag for overloaded signature"

/-- The signatures of one member that lack a label, if there are at least two signatures. -/
def unlabelled (m : Model) (h : Handle) : List Handle :=
  if (m.get h).signatures.length ≤ 1 then []
  else (m.get h).signatures.filter fun s => (m.get s).label?.isNone

/-- Every signature of an overloaded member has a label. -/
def runOverloads (m : Model) (excluded : Excluded) : Trace Step :=
  forOwn m overloadable excluded fun h => .forEach (unlabelled m h) (accuse m missingLabel)

/-! ## `@see` tags -/

/-- What has `@see` and `@fires` tags that are checked. -/
def tagged : Kind := Kind.classKind.or .method

/-- A `@see` tag mentions what does not exist. -/
def seeMessage (raw : String) : String := "Target doclet for \"" ++ raw ++ "\" link is not found"

/-- The trace of one mention in a comment; what is no reference is passed over. -/
def expectMention (ix : Index) (m : Model) (owner : Handle) (message : String → String)
    (text : String) : Trace Step :=
  match Reference.parse? text with
  | some r => expectTarget ix m r owner (message r.raw)
  | none => .nothing

/-- The trace of one `@see` tag. -/
def seeTagTrace (ix : Index) (m : Model) (owner : Handle) (tag : BlockTag) : Trace Step :=
  .ofResult tag.seeTargets fun texts => .forEach texts (expectMention ix m owner seeMessage)

/-- What `@see` tags mention exists. -/
def runSee (ix : Index) (m : Model) (excluded : Excluded) : Trace Step :=
  forOwn m tagged excluded fun h =>
    .forEach (ownedComments m h) fun owned =>
      .forEach (owned.2.tagsNamed seeTag) (seeTagTrace ix m owned.1)

/-! ## Inline links -/

/-- An inline link mentions what does not exist. -/
def linkMessage (raw : String) : String :=
  "Target doclet for \"" ++ raw ++ "\" identifier is not found"

/-- The trace of the links in the comment of one reflection. Signatures are walked on their own, so only
the reflection's own comment is read. -/
def linksOf (ix : Index) (m : Model) (h : Handle) : Trace Step :=
  match (m.get h).comment with
  | none => .nothing
  | some c =>
    .ofResult c.linkTargets fun texts => .forEach texts (expectMention ix m h linkMessage)

/-- What inline links mention exists. -/
def runLinks (ix : Index) (m : Model) (excluded : Excluded) : Trace Step :=
  forOwn m .all excluded (linksOf ix m)

/-! ## `@fires` tags -/

/-- A `@fires` tag mentions what is no event. -/
def eventMessage (raw : String) : String := "Event \"" ++ raw ++ "\" is not found"

/-- The trace of one `@fires` tag; only a reference to an event can name one. -/
def firesTagTrace (ix : Index) (m : Model) (owner : Handle) (tag : BlockTag) : Trace Step :=
  match tag.firedEvent?.bind Reference.parse? with
  | none => .nothing
  | some r =>
    if r.marker = .event then expectTarget ix m r owner (eventMessage r.raw)
    else accuse m (eventMessage r.raw) owner

/-- What `@fires` tags mention exists. -/
def runFires (ix : Index) (m : Model) (excluded : Excluded) : Trace Step :=
  forOwn m tagged excluded fun h =>
    .forEach (ownedComments m h) fun owned =>
      .forEach (owned.2.tagsNamed firesTag) (firesTagTrace ix m owned.1)

/-! ## Running a check -/

/-- The trace of a check with an index. -/
def runWith (c : Check) (ix : Index) (m : Model) (excluded : Excluded) : Trace Step :=
  match c with
  | overloads => runOverloads m excluded
  | see => runSee ix m excluded
  | links => runLinks ix m excluded
  | fires => runFires ix m excluded

/-- The check looks declarations up. -/
def usesIndex : Check → Bool
  | overloads => false
  | _ => true

/-- The trace of a check with an index of its own. -/
def run (c : Check) (m : Model) (excluded : Excluded) : Trace Step :=
  let ix := Index.build m
  (if c.usesIndex then .step (.note ix.event) else .nothing : Trace Step).andThen
    (c.runWith ix m excluded)

end Check

end RefCheck
