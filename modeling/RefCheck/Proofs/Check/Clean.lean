import RefCheck.Check.Basic
import RefCheck.Proofs.Model.Scan

/-!
# Clean projects

What it means that nothing is wrong with the comments of a project. This is said of the model alone: there is
no index in it, no order in which anything is looked at, and no text of an issue.

What is written in a comment is a reference only if it reads as one, so `Model.HasTarget` asks nothing of a
list marker or of an address of the web. What a reference names is found by the scan of `Model.target?`.

Only declarations of the project itself count. Of these, labels are asked of the signatures of methods and
functions, tags are looked at on classes and methods, and links on whatever has a known kind: a declaration
that shares no bit with `Kind.all` has none of its links followed.
-/

namespace RefCheck

/-! ## What comments mention -/

/-- The part is an inline tag that links to a declaration. -/
def Part.IsLink (p : Part) : Prop := p.kind = .inlineTag ∧ ∃ name ∈ linkTags, p.tag = .str name

/-- The tag mentions a text, in a line of plain text or in an inline link. -/
def BlockTag.Mentions (t : BlockTag) (text : String) : Prop :=
  ∃ p ∈ t.content,
    (p.kind = .text ∧ ∃ line ∈ lineTargets p.text.toList, String.ofList line = text) ∨
      (p.IsLink ∧ linkTarget p.text = text)

/-- The value is a text, or there is none. -/
def Value.IsTextOrNull (v : Value) : Prop := v = .null ∨ ∃ s, v = .str s

namespace Model

variable (m : Model)

/-- Names of tags and of files are texts where there are any, so that they can be looked up and compared. -/
structure Legible : Prop where
  /-- The parts of comments have such names. -/
  tags : ∀ h ∈ m.walk, ∀ c, (m.get h).comment = some c → ∀ p ∈ c.parts, p.tag.IsTextOrNull
  /-- The sources have such names. -/
  sources : ∀ h ∈ m.walk, ∀ s ∈ (m.get h).sources, s.fullFileName.IsTextOrNull

/-! ## What is asked of a mention -/

/-- A text is no reference, or there is something that it names from a declaration. -/
def HasTarget (owner : Handle) (text : String) : Prop :=
  Reference.isReference text = true →
    ∃ r h, Reference.parse? text = some r ∧ m.target? r owner = some h

/-- A text is no reference, or it refers to an event and there is one that it names from a declaration. -/
def HasEvent (owner : Handle) (text : String) : Prop :=
  Reference.isReference text = true →
    ∃ r h, Reference.parse? text = some r ∧ r.marker = .event ∧ m.target? r owner = some h

/-! ## What is looked at -/

/-- A declaration of the project itself that meets a mask. -/
def Own (excluded : List String) (mask : Kind) (h : Handle) : Prop :=
  h ∈ m.walk ∧ (m.get h).kind.meets mask = true ∧ m.isOwn (.ok excluded) h = .ok true

/-- A comment that a declaration or one of its signatures has. -/
def Carries (h owner : Handle) (c : Comment) : Prop :=
  (owner = h ∨ owner ∈ (m.get h).signatures) ∧ (m.get owner).comment = some c

/-! ## What is asked of a project -/

/-- Every signature of an overloaded method or function has a label. -/
def OverloadsLabelled (excluded : List String) : Prop :=
  ∀ h, m.Own excluded Check.overloadable h → 2 ≤ (m.get h).signatures.length →
    ∀ s ∈ (m.get h).signatures, (m.get s).label?.isSome = true

/-- What `@see` tags mention is there. -/
def SeeTagsLead (excluded : List String) : Prop :=
  ∀ h, m.Own excluded Check.tagged h → ∀ owner c, m.Carries h owner c →
    ∀ t ∈ c.tagsNamed seeTag, ∀ text, t.Mentions text → m.HasTarget owner text

/-- What inline links mention is there. -/
def LinksLead (excluded : List String) : Prop :=
  ∀ h, m.Own excluded .all h → ∀ c, (m.get h).comment = some c →
    ∀ p ∈ c.parts, p.IsLink → m.HasTarget h (linkTarget p.text)

/-- The events that `@fires` tags mention are there. -/
def FiresTagsLead (excluded : List String) : Prop :=
  ∀ h, m.Own excluded Check.tagged h → ∀ owner c, m.Carries h owner c →
    ∀ t ∈ c.tagsNamed firesTag, ∀ text, t.firedEvent? = some text → m.HasEvent owner text

/-- What one check is there to find out. -/
def Passes (excluded : List String) : Check → Prop
  | .overloads => m.OverloadsLabelled excluded
  | .see => m.SeeTagsLead excluded
  | .links => m.LinksLead excluded
  | .fires => m.FiresTagsLead excluded

/-- There is nothing wrong with the comments of the project. -/
structure Clean (excluded : List String) : Prop where
  overloads : m.OverloadsLabelled excluded
  see : m.SeeTagsLead excluded
  links : m.LinksLead excluded
  fires : m.FiresTagsLead excluded

/-- A project is clean if it passes every check. -/
theorem clean_iff_forall_passes {excluded : List String} :
    m.Clean excluded ↔ ∀ c, m.Passes excluded c := by
  constructor
  · rintro ⟨hoverloads, hsee, hlinks, hfires⟩ c
    cases c with
    | overloads => exact hoverloads
    | see => exact hsee
    | links => exact hlinks
    | fires => exact hfires
  · exact fun h ↦ ⟨h .overloads, h .see, h .links, h .fires⟩

end Model

end RefCheck
