import RefCheck.Data.Value
import RefCheck.Number.Shortest
import RefCheck.Text.Quoted

/-!
# Writing JSON

A value is written in ASCII: every other character, and every control, has a numeric escape, and a
character beyond the first plane has two. On one line, a comma and a space separate what an array or an
object holds; over several lines, each item and field has a line of its own, indented by two spaces per
level, and an empty array or object stays on its line.
-/

namespace RefCheck.Json

/-- A numeric escape of a unit of 16 bits. -/
def unitEscape (n : Nat) : List Char := Text.backslash :: 'u' :: Text.hexFixed 4 n

/-- One character of a text. -/
def escapeChar (c : Char) : List Char :=
  let n := c.toNat
  if c = Text.doubleQuote || c = Text.backslash then [Text.backslash, c]
  else if c = '\n' then [Text.backslash, 'n']
  else if c = '\r' then [Text.backslash, 'r']
  else if c = '\t' then [Text.backslash, 't']
  else if n = 0x0C then [Text.backslash, 'f']
  else if n = 0x08 then [Text.backslash, 'b']
  else if 0x20 ≤ n && n < 0x7F then [c]
  else if n < 0x10000 then unitEscape n
  else unitEscape (0xD800 + (n - 0x10000) / 0x400) ++ unitEscape (0xDC00 + (n - 0x10000) % 0x400)

/-- A text between quotation marks. -/
def writeString (s : String) : List Char :=
  Text.doubleQuote :: s.toList.flatMap escapeChar ++ [Text.doubleQuote]

/-- A floating point number. -/
def writeFloat : Binary64 → List Char
  | .nan => "NaN".toList
  | .infinite negative => (if negative then "-Infinity" else "Infinity").toList
  | x => x.text.toList

/-- How values are laid out. -/
structure Layout where
  /-- Every item and field has a line of its own. -/
  multiline : Bool
  deriving DecidableEq, Repr, Inhabited

/-- All on one line. -/
def Layout.line : Layout := ⟨false⟩

/-- A line for every item and field. -/
def Layout.indented : Layout := ⟨true⟩

/-- What stands after an opening bracket, and before a closing one, at a level. -/
def Layout.break (l : Layout) (level : Nat) : List Char :=
  if l.multiline then '\n' :: List.replicate (2 * level) ' ' else []

/-- What stands between two items at a level. -/
def Layout.separator (l : Layout) (level : Nat) : List Char :=
  if l.multiline then ',' :: l.break level else [',', ' ']

mutual

/-- Writes a value at a level. -/
def write (l : Layout) (level : Nat) : Value → List Char
  | .null => "null".toList
  | .bool b => (if b then "true" else "false").toList
  | .int n => (toString n).toList
  | .float x => writeFloat x
  | .str s => writeString s
  | .arr [] => ['[', ']']
  | .arr (v :: vs) =>
    '[' :: l.break (level + 1) ++ write l (level + 1) v ++ writeItems l (level + 1) vs ++
      l.break level ++ [']']
  | .obj [] => ['\x7b', '\x7d']
  | .obj ((k, v) :: fields) =>
    '\x7b' :: l.break (level + 1) ++ writeString k ++ [':', ' '] ++ write l (level + 1) v ++
      writeFields l (level + 1) fields ++ l.break level ++ ['\x7d']

/-- Writes the items after the first. -/
def writeItems (l : Layout) (level : Nat) : List Value → List Char
  | [] => []
  | v :: vs => l.separator level ++ write l level v ++ writeItems l level vs

/-- Writes the fields after the first. -/
def writeFields (l : Layout) (level : Nat) : List (String × Value) → List Char
  | [] => []
  | (k, v) :: fields =>
    l.separator level ++ writeString k ++ [':', ' '] ++ write l level v ++ writeFields l level fields

end

/-- The value on one line. -/
def compact (v : Value) : String := String.ofList (write .line 0 v)

/-- The value over several lines. -/
def indented (v : Value) : String := String.ofList (write .indented 0 v)

end RefCheck.Json
