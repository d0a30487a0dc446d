import RefCheck.Comment.Token
import RefCheck.Text.Line

/-!
# The layout of a comment

A comment may be written with its decoration: a slash and one or two asterisks before it, an asterisk and
a slash after it, and an asterisk at the start of a line. The decoration is taken off line by line.

The lines that are left form sections. A line that starts with an at sign and a name opens the section of
a block tag; the lines before the first such line are the summary. Between two lines that start with three
back-ticks no line opens a section.
-/

namespace RefCheck.Comment

open RefCheck.Text

/-! ## Decoration -/

/-- The first line without the opening of a comment. -/
def dropOpening (line : List Char) : List Char :=
  match trimStart line with
  | '/' :: '*' :: '*' :: rest => rest
  | '/' :: '*' :: rest => rest
  | _ => line

/-- The last line without the closing of a comment. -/
def dropClosing (line : List Char) : List Char :=
  match (trimEnd line).reverse with
  | '/' :: '*' :: rest => rest.reverse
  | _ => line

/-- A line without the asterisk at its start and one space after it. -/
def dropMargin (line : List Char) : List Char :=
  match trimStart line with
  | '*' :: ' ' :: rest => rest
  | '*' :: rest => rest
  | _ => line

/-- Changes the first item of a list. -/
def onFirst (f : List Char → List Char) : List (List Char) → List (List Char)
  | [] => []
  | line :: lines => f line :: lines

/-- Changes the last item of a list. -/
def onLast (f : List Char → List Char) : List (List Char) → List (List Char)
  | [] => []
  | [line] => [f line]
  | line :: lines => line :: onLast f lines

/-- The lines of a comment without their decoration. -/
def contentLines (cs : List Char) : List (List Char) :=
  (onLast dropClosing (onFirst dropOpening (splitLines (trim cs)))).map dropMargin

/-! ## Sections -/

/-- The character may stand in the name of a block tag, after its first letter. -/
def isTagChar (c : Char) : Bool := isWord c || c == '-'

/-- The name and the rest of a trimmed line that opens a block tag. -/
def openingTag? : List Char → Option (List Char × List Char)
  | a :: c :: cs =>
    if a = '@' && isAsciiLetter c then
      let rest := cs.dropWhile isTagChar
      match rest with
      | [] => some (c :: cs.takeWhile isTagChar, [])
      | d :: _ =>
        if isBlank d then some (c :: cs.takeWhile isTagChar, trimStart rest) else none
    else none
  | _ => none

/-- The line starts with three back-ticks. -/
def opensFence (line : List Char) : Bool := startsWith fence (trim line)

/-- The lines of a comment by section: those of the section that is open, then each block tag with its
lines. `fenced` says whether the first line stands between lines of back-ticks. -/
def sections : Bool → List (List Char) →
    List (List Char) × List (List Char × List (List Char))
  | _, [] => ([], [])
  | fenced, line :: lines =>
    let (body, tags) := sections (fenced != opensFence line) lines
    match if fenced then none else openingTag? (trim line) with
    | some (name, rest) => ([], (name, rest :: body) :: tags)
    | none => (line :: body, tags)

/-- The text of a section. -/
def sectionText (lines : List (List Char)) : List Char := trim (joinLines lines)

/-- The block tag of a section. -/
def toBlockTag (s : List Char × List (List Char)) : BlockTag :=
  ⟨.str (String.ofList ('@' :: s.1)), partsOf (sectionText s.2)⟩

/-- The comment that a text writes down. -/
def ofChars (cs : List Char) : Comment :=
  let (summary, tags) := sections false (contentLines cs)
  ⟨partsOf (sectionText summary), tags.map toBlockTag⟩

/-- The comment that a string writes down. -/
def parse (s : String) : Comment := ofChars s.toList

end RefCheck.Comment
