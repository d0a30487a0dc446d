import RefCheck.Data.Utf8
import RefCheck.Yaml.Block

/-!
# Names, tags and directives

Before a node may stand a name for it and a tag that says what it is. A tag is written in full between
angles, or as a handle and the rest of its name; a handle is an exclamation mark, two of them, or two with
letters in between. An exclamation mark alone is a tag of its own. In the name of a tag, bytes may be
written as a percent sign and two digits.

A directive is a line before a document. It says the version of the format, or what a handle stands for.
-/

namespace RefCheck.Yaml

/-- The character may stand in a name or a handle. -/
def isNameChar (c : Char) : Bool := c.isAlphanum || c == '-' || c == '_'

/-- A word that is not followed by a tab ends here. -/
def atSpaceOrEnd : List Char → Bool
  | [] => true
  | c :: _ => c == ' ' || isBreak c

/-- Reads the name of a node after its mark. -/
def readName? (cs : List Char) : Option (String × List Char) :=
  let name := cs.takeWhile isNameChar
  let rest := cs.drop name.length
  let ends := atWordEnd rest || rest.head?.any fun c => "?:,]\x7d%@\x60".toList.contains c
  if name.isEmpty || !ends then none else some (String.ofList name, rest)

/-! ## Tags -/

/-- The character may stand in the name of a tag. -/
def isTagChar (c : Char) : Bool :=
  c.isAlphanum || "-;/?:@&=+$,_.!~*\x27()[]".toList.contains c

/-- Reads bytes that are each written as a percent sign and two digits. -/
def takeTagBytes? : List Char → Option (List UInt8 × List Char)
  | '%' :: a :: b :: cs => do
    let high ← Json.hexValue? a
    let low ← Json.hexValue? b
    let (bytes, rest) ← takeTagBytes? cs
    return ((high * 16 + low).toUInt8 :: bytes, rest)
  | '%' :: _ => none
  | cs => some ([], cs)

/-- Reads the characters of the name of a tag. Each step takes one, so as many steps as there are
characters, and one more, suffice. -/
def takeTagChars? : Nat → List Char → Option (List Char × List Char)
  | 0, cs => some ([], cs)
  | steps + 1, cs =>
    match cs with
    | [] => some ([], [])
    | c :: rest => do
      if c = '%' then
        let (bytes, rest) ← takeTagBytes? cs
        let text ← (Utf8.decode bytes).toOption
        let (more, rest) ← takeTagChars? steps rest
        return (text ++ more, rest)
      else if isTagChar c then
        let (more, rest) ← takeTagChars? steps rest
        return (c :: more, rest)
      else return ([], cs)

/-- Reads the name of a tag, or the rest of one; it must not be empty. -/
def readTagName? (cs : List Char) : Option (String × List Char) := do
  let (name, rest) ← takeTagChars? (cs.length + 1) cs
  if rest.length = cs.length then none else return (String.ofList name, rest)

/-- Reads a handle that is more than one exclamation mark, after its first one. -/
def readLongHandle? (cs : List Char) : Option (String × List Char) :=
  let name := cs.takeWhile isNameChar
  match cs.drop name.length with
  | '!' :: rest => some (String.ofList ('!' :: name ++ ['!']), rest)
  | _ => none

/-- Another exclamation mark follows before the next space. -/
def hasLongHandle : List Char → Bool
  | [] => false
  | c :: cs => !atSpaceOrEnd (c :: cs) && (c == '!' || hasLongHandle cs)

/-- Reads a tag after its exclamation mark, up to where it has to end. -/
def readTagText? (cs : List Char) : Option (TagText × List Char) := do
  match cs with
  | '<' :: rest =>
    let (name, rest) ← readTagName? rest
    match rest with
    | '>' :: rest => return (⟨none, name⟩, rest)
    | _ => none
  | _ =>
    if atWordEnd cs then return (⟨none, "!"⟩, cs)
    else
      let (handle, rest) ← if hasLongHandle cs then readLongHandle? cs else some ("!", cs)
      let (name, rest) ← readTagName? rest
      return (⟨some handle, name⟩, rest)

/-- Reads a tag after its exclamation mark. -/
def readTag? (cs : List Char) : Option (TagText × List Char) := do
  let (tag, rest) ← readTagText? cs
  if atSpaceOrEnd rest then return (tag, rest) else none

/-! ## Directives -/

/-- Reads the numbers of a version. -/
def readVersion? (cs : List Char) : Option (Directive × List Char) :=
  let cs := cs.dropWhile (· == ' ')
  let major := cs.takeWhile Char.isDigit
  match cs.drop major.length with
  | '.' :: rest =>
    let minor := rest.takeWhile Char.isDigit
    let rest := rest.drop minor.length
    if major.isEmpty || minor.isEmpty || !atSpaceOrEnd rest then none
    else some (.version (Json.digitsValue major), rest)
  | _ => none

/-- Reads a handle, which a space has to follow. -/
def readHandle? (cs : List Char) : Option (String × List Char) := do
  match cs with
  | '!' :: rest =>
    let (handle, rest) ← if rest.head? = some ' ' then some ("!", rest) else readLongHandle? rest
    if rest.head? = some ' ' then return (handle, rest) else none
  | _ => none

/-- Reads a handle and what it stands for. -/
def readHandleMeaning? (cs : List Char) : Option (Directive × List Char) := do
  let (handle, rest) ← readHandle? (cs.dropWhile (· == ' '))
  let (start, rest) ← readTagName? (rest.dropWhile (· == ' '))
  if atSpaceOrEnd rest then return (.handle handle start, rest) else none

/-- Reads a directive after its percent sign, up to the end of its line. -/
def readDirective? (cs : List Char) : Option (Directive × List Char) := do
  let name := cs.takeWhile isNameChar
  let rest := cs.drop name.length
  if name.isEmpty || !atSpaceOrEnd rest then none
  else
    let (directive, rest) ←
      if name = "YAML".toList then readVersion? rest
      else if name = "TAG".toList then readHandleMeaning? rest
      else some (.other, rest.dropWhile fun c => !isBreak c)
    return (directive, ← dropEmptyLine? rest)

end RefCheck.Yaml
