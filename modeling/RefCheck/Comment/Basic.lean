import RefCheck.Data.Value
import RefCheck.Text.Blank

/-!
# Comments

A comment has a summary and block tags; both hold parts. A part is plain text, code, or an inline tag
such as the one that links to another declaration.

Tag names are values and not texts, because a comment can come from a model file, where nothing checks
them: a name that is no text is equal to no name that is asked for.
-/

namespace RefCheck

/-- The kinds of parts. -/
inductive PartKind where
  /-- Plain text. -/
  | text
  /-- Code, with the back-ticks around it. -/
  | code
  /-- An inline tag. -/
  | inlineTag
  deriving DecidableEq, Repr, Inhabited

namespace PartKind

/-- The name of a kind in a model file. -/
def name : PartKind → String
  | text => "text"
  | code => "code"
  | inlineTag => "inline-tag"

/-- The kind of this name; any other value is plain text. -/
def ofValue (v : Value) : PartKind :=
  if v.isText "code" then code else if v.isText "inline-tag" then inlineTag else text

end PartKind

/-- A fragment of a comment. -/
structure Part where
  /-- Its kind. -/
  kind : PartKind
  /-- The text; for an inline tag, what follows its name. -/
  text : String
  /-- The name of an inline tag. -/
  tag : Value
  deriving Inhabited, Repr, BEq

/-- A block tag: its name and what follows it. -/
structure BlockTag where
  /-- The name, with the at sign. -/
  tag : Value
  /-- The parts. -/
  content : List Part
  deriving Inhabited, Repr, BEq

/-- A documentation comment. -/
structure Comment where
  /-- The parts before the first block tag. -/
  summary : List Part
  /-- The block tags, in order. -/
  blockTags : List BlockTag
  deriving Inhabited, Repr, BEq

/-! ## Block tags by name -/

/-- The block tag that labels a signature. -/
def labelTag : String := "@label"

/-- The block tag whose content mentions other declarations. -/
def seeTag : String := "@see"

/-- The block tag that mentions an event. -/
def firesTag : String := "@fires"

namespace BlockTag

/-- The texts of the parts in a row, trimmed. -/
def text (t : BlockTag) : String :=
  Text.trimString (String.join (t.content.map Part.text))

end BlockTag

namespace Comment

/-- The name of a block tag with its at sign, which may be left out. -/
def tagName (name : String) : String := if name.startsWith "@" then name else "@" ++ name

/-- The block tags of a name, in order. -/
def tagsNamed (c : Comment) (name : String) : List BlockTag :=
  c.blockTags.filter fun t => t.tag.isText (tagName name)

/-- The first block tag of a name. -/
def tagNamed? (c : Comment) (name : String) : Option BlockTag :=
  c.blockTags.find? fun t => t.tag.isText (tagName name)

/-- Every part: those of the summary, then those of the block tags in order. -/
def parts (c : Comment) : List Part := c.summary ++ c.blockTags.flatMap BlockTag.content

/-- The first block tag of a name heads the list of all of them. -/
theorem tagNamed?_eq_head? (c : Comment) (name : String) :
    c.tagNamed? name = (c.tagsNamed name).head? := by
  simp [tagNamed?, tagsNamed, List.head?_filter]

end Comment

end RefCheck
