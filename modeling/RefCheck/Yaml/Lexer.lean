import RefCheck.Yaml.Property

/-!
# Cutting settings files into tokens

Two things make this more than a walk over characters.

* Indentation is structure. A hyphen or a key that stands further right than what is open opens a list or
  mapping; what stands further left closes it.
* A key is known by the colon after it. So every place where a key may start is kept, and the colon puts
  the token of the key there. A key stays on one line and within `keyLimit` characters; where a line can
  hold nothing but a key, its colon must come.

A scalar that has no value ends the tokens. From the first place on where a key may have started they are
not settled then, so the mistake takes that place. So does the wish for more, where a text is not whole: there
the last token counts as not settled, since it may go on, and what is wrong with it only if its line is there.
-/

namespace RefCheck.Yaml

open RefCheck.Text

/-- A place in a text. -/
structure Cursor where
  /-- What follows. -/
  rest : List Char
  /-- How many characters stand before. -/
  index : Nat
  /-- How many lines stand before. -/
  line : Nat
  /-- How many characters stand before on the line. -/
  column : Nat
  deriving Repr, Inhabited

namespace Cursor

/-- The place after the next character. -/
def next (c : Cursor) : Cursor :=
  match c.rest with
  | [] => c
  | d :: rest =>
    if isBreak d then ⟨rest, c.index + 1, c.line + 1, 0⟩
    else ⟨rest, c.index + 1, c.line, if d.toNat = 0xFEFF then c.column else c.column + 1⟩

/-- The place after a number of characters. -/
def skip : Nat → Cursor → Cursor
  | 0, c => c
  | n + 1, c => skip n c.next

/-- The place where `rest` is left. -/
def skipTo (rest : List Char) (c : Cursor) : Cursor := c.skip (c.rest.length - rest.length)

end Cursor

/-- A place where a key may have started. -/
structure KeyPlace where
  /-- How many tokens stand before it. -/
  tokens : Nat
  /-- It can be nothing but a key. -/
  isRequired : Bool
  /-- Where it is. -/
  place : Cursor
  deriving Repr, Inhabited

/-- The most characters between the start of a key and its colon. -/
def keyLimit : Nat := 1024

/-- The key may still get its colon here. -/
def KeyPlace.isOpen (k : KeyPlace) (here : Cursor) : Bool :=
  k.place.line == here.line && here.index - k.place.index ≤ keyLimit

/-- What is known in the middle of a text. -/
structure Lexer where
  /-- Where it goes on. -/
  here : Cursor
  /-- The tokens so far. -/
  tokens : Array Token
  /-- The column of the innermost open list or mapping, or `-1`. -/
  indent : Int
  /-- The columns around it. -/
  outer : List Int
  /-- A key may start here. -/
  allowsKey : Bool
  /-- A place for a key on each level of brackets, the innermost first; there is always the level outside
  all brackets. -/
  keys : List (Option KeyPlace)
  /-- What ends the tokens before the text ends. -/
  stop : Option Mistake
  /-- The text is whole; else it is the start of one. -/
  isWhole : Bool
  deriving Inhabited

namespace Lexer

/-- Before a text. -/
def start (isWhole : Bool) (cs : List Char) : Lexer :=
  let cs := match cs with
    | c :: rest => if c.toNat = 0xFEFF then rest else c :: rest
    | [] => []
  { here := ⟨cs, 0, 0, 0⟩, tokens := #[], indent := -1, outer := [], allowsKey := true, keys := [none]
    stop := none, isWhole }

/-- Brackets are open. -/
def inFlow (l : Lexer) : Bool := 1 < l.keys.length

/-- The column. -/
def column (l : Lexer) : Int := l.here.column

/-- A token at the end. -/
def push (l : Lexer) (t : Token) : Lexer := { l with tokens := l.tokens.push t }

/-- A token at the end that takes a number of characters. -/
def take (l : Lexer) (t : Token) (characters : Nat) : Lexer :=
  { l.push t with here := l.here.skip characters }

/-! ## Indentation -/

/-- Closes what stands further right than a column. -/
def closeTo (column : Int) : Int → List Int → Array Token → Lexer → Lexer
  | indent, [], tokens, l => { l with indent, outer := [], tokens }
  | indent, o :: os, tokens, l =>
    if column < indent then closeTo column o os (tokens.push .blockEnd) l
    else { l with indent, outer := o :: os, tokens }

/-- Closes what stands further right than a column, outside brackets. -/
def unwind (l : Lexer) (column : Int) : Lexer :=
  if l.inFlow then l else closeTo column l.indent l.outer l.tokens l

/-- Opens a list or mapping at a column, if it stands further right than what is open; its token goes to a
position. -/
def openAt (l : Lexer) (column : Int) (t : Token) (position : Nat) : Lexer :=
  if l.indent < column then
    { l with
      indent := column
      outer := l.indent :: l.outer
      tokens := l.tokens.insertIdxIfInBounds position t }
  else l

/-! ## Keys -/

/-- Gives up the place for a key on this level; a key that had to come is a mistake. -/
def dropKey (l : Lexer) : Option Lexer :=
  match l.keys with
  | some k :: rest => if k.isRequired then none else some { l with keys := none :: rest }
  | _ => some l

/-- Keeps this place as one where a key may start. -/
def saveKey (l : Lexer) : Option Lexer :=
  if l.allowsKey then do
    let l ← l.dropKey
    let k : KeyPlace := ⟨l.tokens.size, !l.inFlow && l.indent == l.column, l.here⟩
    return { l with keys := some k :: l.keys.drop 1 }
  else some l

/-- Gives up the places that are too far back; a key that had to come is a mistake. -/
def dropOldKeys (l : Lexer) : Option Lexer := do
  let keys ← l.keys.mapM fun
    | some k => if k.isOpen l.here then some (some k) else if k.isRequired then none else some none
    | none => some none
  return { l with keys }

/-! ## Tokens -/

/-- An opening bracket. -/
def openBracket (l : Lexer) (t : Token) : Option Lexer := do
  let l ← l.saveKey
  return { l.take t 1 with keys := none :: l.keys, allowsKey := true }

/-- A closing bracket. -/
def closeBracket (l : Lexer) (t : Token) : Option Lexer := do
  let l ← l.dropKey
  if l.inFlow then return { l.take t 1 with keys := l.keys.drop 1, allowsKey := false } else none

/-- A comma between entries. -/
def comma (l : Lexer) : Option Lexer := do
  let l ← { l with allowsKey := true }.dropKey
  return l.take .comma 1

/-- The mark of a document. -/
def documentMark (l : Lexer) (t : Token) : Option Lexer := do
  let l ← (l.unwind (-1)).dropKey
  return { l.take t 3 with allowsKey := false }

/-- A hyphen before an entry. -/
def hyphen (l : Lexer) : Option Lexer := do
  if !l.inFlow && !l.allowsKey then none
  else
    let l := if l.inFlow then l else l.openAt l.column .listStart l.tokens.size
    let l ← { l with allowsKey := true }.dropKey
    return l.take .hyphen 1

/-- A question mark before a key. -/
def questionMark (l : Lexer) : Option Lexer := do
  if !l.inFlow && !l.allowsKey then none
  else
    let l := if l.inFlow then l else l.openAt l.column .mapStart l.tokens.size
    let l ← { l with allowsKey := !l.inFlow }.dropKey
    return l.take .key 1

/-- A colon after a key that started at a place. -/
def colonAfter (l : Lexer) (k : KeyPlace) : Lexer :=
  let l := { l with
    keys := none :: l.keys.drop 1
    tokens := l.tokens.insertIdxIfInBounds k.tokens .key
    allowsKey := false }
  let l := if l.inFlow then l else l.openAt k.place.column .mapStart k.tokens
  l.take .colon 1

/-- A colon after no key. -/
def colonAlone (l : Lexer) : Option Lexer := do
  if !l.inFlow && !l.allowsKey then none
  else
    let l := if l.inFlow then l else l.openAt l.column .mapStart l.tokens.size
    let l ← { l with allowsKey := !l.inFlow }.dropKey
    return l.take .colon 1

/-- A colon. -/
def colon (l : Lexer) : Option Lexer :=
  match l.keys with
  | some k :: _ => some (l.colonAfter k)
  | _ => l.colonAlone

/-- A token after the places for a key that were there; `rest` follows it. -/
def takeTo (l : Lexer) (t : Token) (rest : List Char) : Lexer :=
  { l.push t with here := l.here.skipTo rest, allowsKey := false }

/-- A quoted scalar. -/
def quotedScalar (l : Lexer) (isDouble : Bool) : Option Lexer := do
  let l ← l.saveKey
  match readQuoted isDouble (l.here.rest.drop 1) with
  | .ok (text, rest) => return l.takeTo (.quoted text) rest
  | .error m =>
    if m = .malformed || m = .cutOff && l.isWhole then none else return { l with stop := some m }

/-- A scalar in the block style. -/
def blockScalar (l : Lexer) (isFolded : Bool) : Option Lexer := do
  let l ← { l with allowsKey := true }.dropKey
  let (text, rest) ← readBlock? isFolded l.indent (l.here.rest.drop 1)
  return { l.takeTo (.quoted text) rest with allowsKey := true }

/-- The name of a node, or a node that is meant by its name. -/
def name (l : Lexer) (t : String → Token) : Option Lexer := do
  let l ← l.saveKey
  let (name, rest) ← readName? (l.here.rest.drop 1)
  return l.takeTo (t name) rest

/-- A tag. -/
def tag (l : Lexer) : Option Lexer := do
  let l ← l.saveKey
  let (tag, rest) ← readTag? (l.here.rest.drop 1)
  return l.takeTo (.tag tag) rest

/-- A directive. -/
def directive (l : Lexer) : Option Lexer := do
  let l ← (l.unwind (-1)).dropKey
  let (d, rest) ← readDirective? (l.here.rest.drop 1)
  return l.takeTo (.directive d) rest

/-- A plain scalar. -/
def plainScalar (l : Lexer) : Option Lexer := do
  let l ← l.saveKey
  let p := readPlain l.inFlow (l.indent + 1) l.here.rest
  return { l.takeTo (.plain p.text) p.rest with allowsKey := p.isBroken }

/-- The characters that no plain scalar starts with, unless a mark is not followed by a blank. -/
def isIndicator (c : Char) : Bool := "-?:,[]\x7b\x7d#&*!|>\x27\x22%@\x60".toList.contains c

/-- A plain scalar starts here. -/
def startsPlain (inFlow : Bool) : List Char → Bool
  | [] => false
  | c :: cs =>
    !(isSpace c || isBreak c || isIndicator c) ||
      (!atWordEnd cs && (c == '-' || (!inFlow && (c == '?' || c == ':'))))

/-- How many characters before the next token are spaces, line breaks and comments, and whether there is
a line break. -/
def leadingBlank (inComment : Bool) : List Char → Nat × Bool
  | [] => (0, false)
  | c :: cs =>
    if isBreak c then ((leadingBlank false cs).1 + 1, true)
    else if inComment || c = ' ' then
      let (n, broken) := leadingBlank inComment cs
      (n + 1, broken)
    else if c = '#' then
      let (n, broken) := leadingBlank true cs
      (n + 1, broken)
    else (0, false)

/-- Passes over what stands before the next token. After a line break a key may start. -/
def skipBlank (l : Lexer) : Lexer :=
  let (n, broken) := leadingBlank false l.here.rest
  { l with here := l.here.skip n, allowsKey := l.allowsKey || (broken && !l.inFlow) }

/-- The next token; `cs` follows its first character `c`. -/
def token (l : Lexer) (c : Char) (cs : List Char) : Option Lexer :=
  let atStart := l.here.column == 0
  if atStart && c = '%' then l.directive
  else if atStart && atDocumentStart (c :: cs) then l.documentMark .documentStart
  else if atStart && atDocumentEnd (c :: cs) then l.documentMark .documentEnd
  else if c = '[' then l.openBracket .squareOpen
  else if c = '\x7b' then l.openBracket .curlyOpen
  else if c = ']' then l.closeBracket .squareClose
  else if c = '\x7d' then l.closeBracket .curlyClose
  else if c = ',' then l.comma
  else if c = '-' && atWordEnd cs then l.hyphen
  else if c = '?' && (l.inFlow || atWordEnd cs) then l.questionMark
  else if c = ':' && (l.inFlow || atWordEnd cs) then l.colon
  else if c = '*' then l.name .sameAs
  else if c = '&' then l.name .anchor
  else if c = '!' then l.tag
  else if c = '|' && !l.inFlow then l.blockScalar false
  else if c = '>' && !l.inFlow then l.blockScalar true
  else if c = '\x27' then l.quotedScalar false
  else if c = '\x22' then l.quotedScalar true
  else if startsPlain l.inFlow (c :: cs) then l.plainScalar
  else none

/-- The tokens that are settled, and a mistake after them. -/
def tokensTo (l : Lexer) (m : Mistake) : Array Token :=
  let settled := (l.keys.filterMap id).foldl (fun n k => min n k.tokens) l.tokens.size
  (l.tokens.extract 0 settled).push (.mistake m)

/-- Reads tokens to the end of the text. Each takes at least one character, and what ends them takes a step
of its own, so as many steps as there are characters, and two more, suffice. -/
def run : Nat → Lexer → Option (Array Token)
  | 0, _ => none
  | steps + 1, l =>
    match l.stop with
    | some m => some (l.tokensTo m)
    | none => do
      let next ← l.skipBlank.dropOldKeys
      let next := next.unwind next.column
      match next.here.rest with
      | [] =>
        if l.isWhole then return (← (next.unwind (-1)).dropKey).tokens else return l.tokensTo .cutOff
      | c :: cs =>
        match next.token c cs with
        | some after =>
          if !l.isWhole && after.here.rest.isEmpty then return next.tokensTo .cutOff else run steps after
        | none => if l.isWhole || cs.any isBreak then none else return next.tokensTo .cutOff

end Lexer

/-- The tokens of a text, or of the start of one, unless it breaks the rules of tokens. -/
def tokens? (isWhole : Bool) (cs : List Char) : Option (List Token) :=
  ((Lexer.start isWhole cs).run (cs.length + 2)).map Array.toList

end RefCheck.Yaml
