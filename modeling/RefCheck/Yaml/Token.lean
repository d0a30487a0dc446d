import RefCheck.Data.Reader
import RefCheck.Fault.Basic
import RefCheck.Text.Split

/-!
# Tokens of settings files

Settings files are written in YAML 1.1. This module holds the tokens and how the text of a plain or quoted
scalar is read. Such a scalar may run over several lines. The spaces around a line break are then dropped,
a single break becomes a space, and of several breaks the first is dropped.

A file that cannot be read is malformed, or it keeps to the syntax and holds a scalar that has no value.
Which of the two is told depends on which is met first, so tokens can end in a mistake: what reads them
meets it there, or finds a mistake of its own before. The same holds where only the start of a file is known:
then the tokens end in the wish for more.
-/

namespace RefCheck.Yaml

open RefCheck.Text

/-- Why a settings file cannot be read. -/
inductive Mistake where
  /-- It breaks the syntax. -/
  | malformed
  /-- More of it is wanted than there is. -/
  | cutOff
  /-- A scalar in it has no value. -/
  | unreadable (u : Unreadable)
  deriving DecidableEq, Repr, Inhabited

/-- A tag as it is written: the handle that stands for the start of its name, if there is one, and the rest
of its name. -/
structure TagText where
  /-- The handle. -/
  handle : Option String
  /-- The rest. -/
  rest : String
  deriving DecidableEq, Repr, Inhabited

/-- What a line that starts with a percent sign says. -/
inductive Directive where
  /-- The version of the format, by its first number. -/
  | version (major : Nat)
  /-- What a handle stands for. -/
  | handle (name start : String)
  /-- Something else, which does not count. -/
  | other
  deriving DecidableEq, Repr, Inhabited

/-- A token of a settings file. -/
inductive Token where
  /-- A directive. -/
  | directive (d : Directive)
  /-- Three hyphens: a document starts. -/
  | documentStart
  /-- Three points: a document ends. -/
  | documentEnd
  /-- A list with an entry on each line starts. -/
  | listStart
  /-- A mapping with an entry on each line starts. -/
  | mapStart
  /-- Such a list or mapping ends. -/
  | blockEnd
  /-- An opening square bracket. -/
  | squareOpen
  /-- A closing square bracket. -/
  | squareClose
  /-- An opening curly bracket. -/
  | curlyOpen
  /-- A closing curly bracket. -/
  | curlyClose
  /-- A comma between entries. -/
  | comma
  /-- A hyphen: an entry of a list starts. -/
  | hyphen
  /-- A key starts. -/
  | key
  /-- A colon: a value starts. -/
  | colon
  /-- A name for the node that follows. -/
  | anchor (name : String)
  /-- The node with a name, once more. -/
  | sameAs (name : String)
  /-- What the node that follows is. -/
  | tag (t : TagText)
  /-- A plain scalar. -/
  | plain (text : List Char)
  /-- A scalar between quotation marks, or in the block style. -/
  | quoted (text : List Char)
  /-- Nothing more can be read, for this reason. -/
  | mistake (m : Mistake)
  deriving DecidableEq, Repr, Inhabited

/-! ## Characters -/

/-- The character breaks a line. -/
def isBreak (c : Char) : Bool :=
  let n := c.toNat
  n == 0x0A || n == 0x0D || n == 0x85 || n == 0x2028 || n == 0x2029

/-- The character that a line break counts as. -/
def breakChar (c : Char) : Char := if c.toNat = 0x2028 || c.toNat = 0x2029 then c else '\n'

/-- The character separates words on a line. -/
def isSpace (c : Char) : Bool := c == ' ' || c == '\t'

/-- A word ends here. -/
def atWordEnd : List Char → Bool
  | [] => true
  | c :: _ => isSpace c || isBreak c

/-- A bracket or comma of the flow style. -/
def isFlowMark (c : Char) : Bool :=
  c == ',' || c == '[' || c == ']' || c == '\x7b' || c == '\x7d'

/-- The characters may stand in a settings file. -/
def isAllowed (c : Char) : Bool :=
  let n := c.toNat
  n == 0x09 || n == 0x0A || n == 0x0D || (0x20 ≤ n && n ≤ 0x7E) || n == 0x85 ||
    (0xA0 ≤ n && n ≤ 0xFFFD) || 0x10000 ≤ n

/-- A mark that starts a document stands here. -/
def atDocumentStart (cs : List Char) : Bool :=
  startsWith ['-', '-', '-'] cs && atWordEnd (cs.drop 3)

/-- A mark that ends a document stands here. -/
def atDocumentEnd (cs : List Char) : Bool :=
  startsWith ['.', '.', '.'] cs && atWordEnd (cs.drop 3)

/-- A mark of a document stands here. -/
def atDocumentMark (cs : List Char) : Bool := atDocumentStart cs || atDocumentEnd cs

/-- What a line break and the breaks after it become in a scalar. -/
def foldBreaks (first : Char) (more : List Char) : List Char :=
  if breakChar first != '\n' then breakChar first :: more
  else if more.isEmpty then [' ']
  else more

/-! ## Plain scalars -/

/-- A plain scalar cannot go on here. -/
def plainStops (inFlow : Bool) : List Char → Bool
  | [] => true
  | c :: cs =>
    isSpace c || isBreak c ||
      (c == ':' && (atWordEnd cs || (inFlow && (cs.head?.any isFlowMark)))) ||
      (inFlow && (isFlowMark c || c == '?'))

/-- The characters of a plain scalar up to where it cannot go on, and what follows. -/
def takePlain (inFlow : Bool) : List Char → List Char × List Char
  | [] => ([], [])
  | c :: cs =>
    if plainStops inFlow (c :: cs) then ([], c :: cs)
    else
      let (taken, rest) := takePlain inFlow cs
      (c :: taken, rest)

/-- What stands between two words of a plain scalar. -/
structure Gap where
  /-- What becomes of it in the scalar; nothing, if the scalar ends here. -/
  text : List Char
  /-- It breaks a line. -/
  isBroken : Bool
  /-- How many spaces stand after the last break. -/
  column : Nat
  /-- What follows. -/
  rest : List Char
  deriving Repr, Inhabited

/-- Reads spaces and line breaks after a first break; `column` counts the spaces since the last one. A
mark of a document ends the scalar. -/
def takeBreaks (column : Nat) : List Char → Option (List Char) × Nat × List Char
  | [] => (some [], column, [])
  | c :: cs =>
    if c = ' ' then takeBreaks (column + 1) cs
    else if isBreak c then
      if atDocumentMark cs then (none, 0, cs)
      else
        let (more, column, rest) := takeBreaks 0 cs
        (more.map (breakChar c :: ·), column, rest)
    else (some [], column, c :: cs)

/-- Reads what stands after a word of a plain scalar. -/
def takeGap (cs : List Char) : Gap :=
  let spaces := cs.takeWhile (· == ' ')
  match cs.dropWhile (· == ' ') with
  | [] => ⟨spaces, false, 0, []⟩
  | c :: rest =>
    if isBreak c then
      if atDocumentMark rest then ⟨[], true, 0, rest⟩
      else
        match takeBreaks 0 rest with
        | (some more, column, rest) => ⟨foldBreaks c more, true, column, rest⟩
        | (none, column, rest) => ⟨[], true, column, rest⟩
    else ⟨spaces, false, 0, c :: rest⟩

/-- A plain scalar that was read. -/
structure PlainText where
  /-- Its text. -/
  text : List Char
  /-- The last thing before what follows is a line break. -/
  isBroken : Bool
  /-- What follows. -/
  rest : List Char
  deriving Repr, Inhabited

/-- Reads words of a plain scalar after a gap. Outside the flow style, each line has to be indented by
`indent` at least. Every word takes a character, so as many steps as there are characters suffice. -/
def readPlainWords (inFlow : Bool) (indent : Int) : Nat → List Char → PlainText
  | 0, cs => ⟨[], false, cs⟩
  | steps + 1, cs =>
    match takePlain inFlow cs with
    | ([], _) => ⟨[], false, cs⟩
    | (word, after) =>
      let gap := takeGap after
      let stops := gap.text.isEmpty || gap.rest.head? == some '#' ||
        (gap.isBroken && !inFlow && (gap.column : Int) < indent)
      if stops then ⟨word, gap.isBroken, gap.rest⟩
      else
        let next := readPlainWords inFlow indent steps gap.rest
        if next.text.isEmpty then ⟨word, gap.isBroken, gap.rest⟩
        else ⟨word ++ gap.text ++ next.text, next.isBroken, next.rest⟩

/-- Reads a plain scalar. -/
def readPlain (inFlow : Bool) (indent : Int) (cs : List Char) : PlainText :=
  readPlainWords inFlow indent cs.length cs

/-! ## Quoted scalars -/

/-- Reads line breaks of a quoted scalar after a first one, with the spaces that start a line. A mark of
a document may not stand in the scalar. -/
def takeQuotedBreaks : Nat → List Char → Option (List Char × List Char)
  | 0, _ => none
  | steps + 1, cs =>
    if atDocumentMark cs then none
    else
      match cs.dropWhile isSpace with
      | c :: rest =>
        if isBreak c then
          (takeQuotedBreaks steps rest).map fun r => (breakChar c :: r.1, r.2)
        else some ([], c :: rest)
      | [] => some ([], [])

/-- The character that a letter after a backslash stands for. -/
def escapedChar? (c : Char) : Option Char :=
  [('0', 0x00), ('a', 0x07), ('b', 0x08), ('t', 0x09), ('\t', 0x09), ('n', 0x0A), ('v', 0x0B),
    ('f', 0x0C), ('r', 0x0D), ('e', 0x1B), (' ', 0x20), ('\x22', 0x22), ('\x5c', 0x5C), ('/', 0x2F),
    ('N', 0x85), ('_', 0xA0), ('L', 0x2028), ('P', 0x2029)].lookup c |>.map Char.ofNat

/-- How many hexadecimal digits follow a letter after a backslash. -/
def escapeDigits? (c : Char) : Option Nat := [('x', 2), ('u', 4), ('U', 8)].lookup c

/-- The number that hexadecimal digits write down. -/
def hexNumber? (ds : List Char) : Option Nat :=
  ds.foldlM (fun n d => (Json.hexValue? d).map (16 * n + ·)) 0

/-- The character of a number. Half of a pair of units alone is none, and no text here can hold it, so it is refused
where it is read. -/
def charOf (n : Nat) : Except Mistake Char :=
  if n.isValidChar then .ok (Char.ofNat n)
  else if n < 0x110000 then .error .malformed
  else .error (.unreadable (if n < 0x80000000 then .noCharacter else .hugeCharacter))

/-- The character that a number of digits at the start of a text stands for, and what follows. -/
def readNumericEscape (digits : Nat) (cs : List Char) : Except Mistake (Char × List Char) :=
  if cs.length < digits then
    .error (if cs.all fun c => (Json.hexValue? c).isSome then .cutOff else .malformed)
  else
    match hexNumber? (cs.take digits) with
    | some n => (charOf n).map fun c => (c, cs.drop digits)
    | none => .error .malformed

/-- Reads a quoted scalar after its opening quotation mark. Every step takes a character, so as many steps
as there are characters, and one more, suffice. -/
def readQuotedFrom (isDouble : Bool) : Nat → List Char → Except Mistake (List Char × List Char)
  | 0, _ => .error .malformed
  | _, [] => .error .cutOff
  | steps + 1, c :: cs =>
    let readOn (text : List Char) (rest : List Char) :=
      (readQuotedFrom isDouble steps rest).map fun r => (text ++ r.1, r.2)
    if isSpace c then
      match cs.dropWhile isSpace with
      | [] => .error .cutOff
      | d :: rest =>
        if isBreak d then readOn [] (d :: rest) else readOn (c :: cs.takeWhile isSpace) (d :: rest)
    else if isBreak c then
      match takeQuotedBreaks (cs.length + 1) cs with
      | some (more, rest) => readOn (foldBreaks c more) rest
      | none => .error .malformed
    else if isDouble then
      if c = '\x22' then .ok ([], cs)
      else if c = '\x5c' then
        match cs with
        | [] => .error .cutOff
        | d :: rest =>
          match escapedChar? d, escapeDigits? d with
          | some e, _ => readOn [e] rest
          | none, some digits =>
            match readNumericEscape digits rest with
            | .ok (e, rest) => readOn [e] rest
            | .error m => .error m
          | none, none =>
            if isBreak d then
              match takeQuotedBreaks (rest.length + 1) rest with
              | some (more, rest) => readOn more rest
              | none => .error .malformed
            else .error .malformed
      else readOn [c] cs
    else if c = '\x27' then
      match cs with
      | '\x27' :: rest => readOn ['\x27'] rest
      | rest => .ok ([], rest)
    else readOn [c] cs

/-- Reads a quoted scalar after its opening quotation mark. -/
def readQuoted (isDouble : Bool) (cs : List Char) : Except Mistake (List Char × List Char) :=
  readQuotedFrom isDouble (cs.length + 1) cs

end RefCheck.Yaml
