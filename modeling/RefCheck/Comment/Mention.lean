import RefCheck.Comment.Basic
import RefCheck.Fault.Basic
import RefCheck.Reference.Grammar
import RefCheck.Text.Line

/-!
# Mentions of other declarations

A comment mentions other declarations in three places: in inline links, in `@see` tags and in `@fires`
tags. This module finds the texts that ought to be references; whether they are is left to the checks.

* An inline link mentions its first word; a blank or a bar ends it.
* A `@see` tag mentions each inline link, and each line of plain text after its list marker.
* A `@fires` tag mentions its first word. A bare name stands for an event of the class around it.
-/

namespace RefCheck

open RefCheck.Text

/-- The inline tags that link to a declaration. -/
def linkTags : List String := ["@link", "@linkcode", "@linkplain"]

/-- The name of an inline tag is one that links. A name can be looked up, and so can other plain values,
but an array or object cannot. -/
def isLinkTag : Value → Except Fault Bool
  | .str s => .ok (linkTags.contains s)
  | .arr _ | .obj _ => .error (.misshapen .notAName)
  | _ => .ok false

/-! ## Inline links -/

/-- The character may stand in the target of a link. -/
def inTarget (c : Char) : Bool := !isBlank c && c != '|'

/-- The first word of an inline link, as characters. -/
def linkTargetChars (cs : List Char) : List Char := (trim cs).takeWhile inTarget

/-- The first word of an inline link. -/
def linkTarget (s : String) : String := String.ofList (linkTargetChars s.toList)

/-- The target of a part that is an inline link. -/
def Part.linkTarget? (p : Part) : Except Fault (Option String) :=
  if p.kind = .inlineTag then do
    return if ← isLinkTag p.tag then some (linkTarget p.text) else none
  else .ok none

/-- The targets of the inline links of a comment, once per occurrence. -/
def Comment.linkTargets (c : Comment) : Except Fault (List String) := do
  return (← c.parts.mapM Part.linkTarget?).filterMap id

/-! ## `@see` tags -/

/-- The character is a list marker. -/
def isListMarker (c : Char) : Bool := c == '-' || c == '*' || c == '+'

/-- A trimmed line without a list marker and the blanks after it. -/
def dropListMarker : List Char → List Char
  | c :: d :: cs => if isListMarker c && isBlank d then trimStart cs else c :: d :: cs
  | cs => cs

/-- What the lines of a text mention. -/
def lineTargets (cs : List Char) : List (List Char) :=
  ((splitLines cs).map fun line => dropListMarker (trim line)).filter (!·.isEmpty)

/-- What a part of a `@see` tag mentions. -/
def Part.seeTargets (p : Part) : Except Fault (List String) :=
  match p.kind with
  | .inlineTag => do return (← p.linkTarget?).toList
  | .text => .ok ((lineTargets p.text.toList).map String.ofList)
  | .code => .ok []

/-- What a `@see` tag mentions, in order. -/
def BlockTag.seeTargets (t : BlockTag) : Except Fault (List String) := do
  return (← t.content.mapM Part.seeTargets).flatten

/-! ## `@fires` tags -/

/-- What a reference may start with. -/
def referenceLeads : List (List Char) := [Reference.moduleLead, ['~'], ['#'], ['.']]

/-- A word as the reference to an event: a bare name addresses an event of the class around it. -/
def eventReference (word : List Char) : List Char :=
  if referenceLeads.any fun lead => startsWith lead word then word
  else Reference.eventLead ++ word

/-- What a `@fires` tag mentions, if it is not blank. -/
def BlockTag.firedEvent? (t : BlockTag) : Option String :=
  match firstWord t.text.toList with
  | [] => none
  | word => some (String.ofList (eventReference word))

end RefCheck
