import RefCheck.Yaml.Token

/-!
# Block scalars

A block scalar starts with a bar or an angle on the line of its key, and its lines stand below, further
right. After a bar its line breaks stay. After an angle a single break between two lines that both start
with no space becomes a space, and of several breaks the first is dropped.

What indents the lines is told by the first of them that is not blank, unless a digit on the first line
says how much further right they stand. A hyphen there drops the breaks at the end of the scalar, a plus
sign keeps all of them, and otherwise one is kept.
-/

namespace RefCheck.Yaml

/-- What becomes of the line breaks at the end of a block scalar. -/
inductive Ending where
  /-- One is kept. -/
  | one
  /-- None is kept. -/
  | none
  /-- All are kept. -/
  | all
  deriving DecidableEq, Repr, Inhabited

/-! ## The first line -/

/-- Reads the sign for the ending. -/
def takeEnding : List Char → Ending × List Char
  | '-' :: cs => (.none, cs)
  | '+' :: cs => (.all, cs)
  | cs => (.one, cs)

/-- Reads the digit for the indentation, which is not zero. -/
def takeIndent? : List Char → Option (Option Nat × List Char)
  | c :: cs =>
    if c = '0' then none
    else if c.isDigit then some (some (c.toNat - 0x30), cs)
    else some (none, c :: cs)
  | [] => some (none, [])

/-- Reads the sign and the digit, in either order. -/
def takeMarks? (cs : List Char) : Option (Ending × Option Nat × List Char) := do
  match takeEnding cs with
  | (.one, cs) =>
    let (indent, cs) ← takeIndent? cs
    match indent with
    | some n =>
      let (ending, cs) := takeEnding cs
      return (ending, some n, cs)
    | none => return (.one, none, cs)
  | (ending, cs) =>
    let (indent, cs) ← takeIndent? cs
    return (ending, indent, cs)

/-- A line ends here. -/
def atLineEnd : List Char → Bool
  | [] => true
  | c :: _ => isBreak c

/-- What follows a line on which nothing but spaces and a comment is left. -/
def dropEmptyLine? (cs : List Char) : Option (List Char) :=
  let cs := cs.dropWhile (· == ' ')
  let cs := if cs.head? == some '#' then cs.dropWhile fun c => !isBreak c else cs
  if atLineEnd cs then some (cs.drop 1) else none

/-- Reads the first line after the bar or angle. -/
def takeHeader? (cs : List Char) : Option (Ending × Option Nat × List Char) := do
  let (ending, indent, cs) ← takeMarks? cs
  if cs.head? == some ' ' || atLineEnd cs then return (ending, indent, ← dropEmptyLine? cs) else none

/-! ## The lines below -/

/-- The greatest number of spaces before a line break or the first other character; `column` counts
those since the last break. -/
def widestSpace (column : Nat) : List Char → Nat
  | [] => column
  | c :: cs =>
    if c = ' ' then widestSpace (column + 1) cs
    else if isBreak c then max column (widestSpace 0 cs)
    else column

/-- Reads line breaks and at most `indent` spaces after each; `column` counts those since the last
break. The result is the breaks, the column and what follows. -/
def takeBlankLines (indent column : Nat) : List Char → List Char × Nat × List Char
  | [] => ([], column, [])
  | c :: cs =>
    if c = ' ' && column < indent then takeBlankLines indent (column + 1) cs
    else if isBreak c then
      let (breaks, column, rest) := takeBlankLines indent 0 cs
      (breakChar c :: breaks, column, rest)
    else ([], column, c :: cs)

/-- Lines of a block scalar. -/
structure BlockLines where
  /-- Their text, without the last line break. -/
  text : List Char
  /-- The last line break, if there is one. -/
  lastBreak : List Char
  /-- The line breaks after that. -/
  moreBreaks : List Char
  /-- What follows. -/
  rest : List Char
  deriving Repr, Inhabited

/-- What stands between two lines: the break that ends the first one, or a space or nothing in its
place. -/
def lineJoint (isFolded : Bool) (ending : Char) (line more next : List Char) : List Char :=
  let isSpaced (cs : List Char) := cs.head?.any isSpace
  if isFolded && breakChar ending == '\n' && !isSpaced line && !isSpaced next then
    if more.isEmpty then [' '] else []
  else [breakChar ending]

/-- Reads lines that are indented by `indent`, after line breaks and spaces up to a column. Every line but
the last takes a line break, so as many steps as there are characters, and one more, suffice. -/
def readLines (isFolded : Bool) (indent : Nat) :
    Nat → List Char × Nat × List Char → BlockLines
  | 0, (breaks, _, cs) => ⟨[], [], breaks, cs⟩
  | steps + 1, (breaks, column, cs) =>
    if column != indent || cs.isEmpty then ⟨[], [], breaks, cs⟩
    else
      let line := cs.takeWhile fun c => !isBreak c
      match cs.drop line.length with
      | [] => ⟨breaks ++ line, [], [], []⟩
      | ending :: after =>
        let (more, column, next) := takeBlankLines indent 0 after
        if column != indent || next.isEmpty then
          ⟨breaks ++ line, [breakChar ending], more, next⟩
        else
          let below := readLines isFolded indent steps (more, column, next)
          { below with text := breaks ++ line ++ lineJoint isFolded ending cs more next ++ below.text }

/-- Reads a block scalar after its bar or angle. Its lines stand further right than the column `outer` of
what is open around it. -/
def readBlock? (isFolded : Bool) (outer : Int) (cs : List Char) : Option (List Char × List Char) := do
  let (ending, given, cs) ← takeHeader? cs
  let least := (max (outer + 1) 1).toNat
  let indent :=
    match given with
    | some n => least + n - 1
    | none => max least (widestSpace 0 cs)
  let lines := readLines isFolded indent (cs.length + 1) (takeBlankLines indent 0 cs)
  let text :=
    match ending with
    | .none => lines.text
    | .one => lines.text ++ lines.lastBreak
    | .all => lines.text ++ lines.lastBreak ++ lines.moreBreaks
  return (text, lines.rest)

end RefCheck.Yaml
