import RefCheck.Data.Value
import RefCheck.Text.Digit

/-!
# Reading JSON

The reader takes the text of one value. It accepts the three floating point numbers that have no digits,
`NaN`, `Infinity` and `-Infinity`, and of a key that an object gives twice the last value counts, in the
place of the first. A fault says what was expected and where; positions count characters, and lines end
at line feeds only. Only so many digits of a whole number are read, and only so many levels of arrays and
objects.

Readers take the characters that are left and return those that they leave. A fault carries how many
characters were left where it arose, which gives its position once the whole text is known.
-/

namespace RefCheck.Json

/-- What is wrong with a text that is no JSON. -/
inductive Flaw where
  /-- A value was expected. -/
  | value
  /-- A key between quotation marks was expected. -/
  | key
  /-- A colon was expected. -/
  | colon
  /-- A comma was expected. -/
  | comma
  /-- Something follows the value. -/
  | extra
  /-- A text holds a control character. -/
  | control
  /-- A backslash starts no escape. -/
  | escape
  /-- A numeric escape has not its four digits. -/
  | numericEscape
  /-- A text does not end. -/
  | unterminated
  /-- The text starts with a byte order mark. -/
  | byteOrderMark
  /-- A whole number has more digits than are read. -/
  | longNumber
  /-- Arrays and objects nest more deeply than is read. -/
  | tooDeep
  deriving DecidableEq, Repr, Inhabited

/-- The wording of a flaw. -/
def Flaw.message : Flaw → String
  | value => "Expecting value"
  | key => "Expecting property name enclosed in double quotes"
  | colon => "Expecting ':' delimiter"
  | comma => "Expecting ',' delimiter"
  | extra => "Extra data"
  | control => "Invalid control character at"
  | escape => "Invalid \\escape"
  | numericEscape => "Invalid \\uXXXX escape"
  | unterminated => "Unterminated string starting at"
  | byteOrderMark => "Unexpected UTF-8 BOM (decode using utf-8-sig)"
  | longNumber => "Too many digits"
  | tooDeep => "Too many levels"

/-- A flaw and how many characters were left where it arose. -/
abbrev Stop := Flaw × Nat

/-- A flaw and its position. -/
structure Fault where
  /-- What is wrong. -/
  flaw : Flaw
  /-- How many characters stand before it. -/
  position : Nat
  /-- The line that it stands on, from one. -/
  line : Nat
  /-- The place in that line, from one. -/
  column : Nat
  deriving DecidableEq, Repr, Inhabited

/-- The wording of a fault. -/
def Fault.message (f : Fault) : String :=
  f.flaw.message ++ ": line " ++ toString f.line ++ " column " ++ toString f.column ++ " (char " ++
    toString f.position ++ ")"

/-- The fault at a position of a text. -/
def Fault.at (text : List Char) (flaw : Flaw) (position : Nat) : Fault :=
  let before := text.take position
  { flaw, position
    line := before.count '\n' + 1
    column := (before.reverse.takeWhile (· != '\n')).length + 1 }

/-- The four characters that may stand between the parts of a value. -/
def isSpace (c : Char) : Bool := c = ' ' || c = '\n' || c = '\t' || c = '\r'

/-- The characters from the first that is no space. -/
def skipSpace (cs : List Char) : List Char := cs.dropWhile isSpace

/-! ## Texts -/

/-- The value of a hexadecimal digit. -/
def hexValue? (c : Char) : Option Nat :=
  if c.isDigit then some (c.toNat - 0x30)
  else if 'a' ≤ c && c ≤ 'f' then some (c.toNat - 0x57)
  else if 'A' ≤ c && c ≤ 'F' then some (c.toNat - 0x37)
  else none

/-- The value of four hexadecimal digits. -/
def hexUnit? (a b c d : Char) : Option Nat :=
  match hexValue? a, hexValue? b, hexValue? c, hexValue? d with
  | some a, some b, some c, some d => some (((a * 16 + b) * 16 + c) * 16 + d)
  | _, _, _, _ => none

/-- The first unit of a pair that writes one character. -/
def isHighUnit (n : Nat) : Bool := 0xD800 ≤ n && n ≤ 0xDBFF

/-- The second unit of such a pair. -/
def isLowUnit (n : Nat) : Bool := 0xDC00 ≤ n && n ≤ 0xDFFF

/-- The character of a unit. Half of a pair alone is no character, so that no text here can hold it: it gives the
replacement character, and texts that differ in such halves only become one. What is said of a run over a file
therefore asks that the file spells characters. -/
def unitChar (n : Nat) : Char :=
  if isHighUnit n || isLowUnit n then Char.ofNat 0xFFFD else Char.ofNat n

/-- The character of a pair of units. -/
def pairChar (high low : Nat) : Char :=
  Char.ofNat (0x10000 + (high - 0xD800) * 0x400 + (low - 0xDC00))

/-- Every numeric escape among these characters writes a character, alone or as one of a pair, and none is half of
a pair alone. While the second half of a pair is `due`, nothing else may stand there. -/
def spellsFrom (due : Bool) : List Char → Bool
  | [] => !due
  | c :: cs =>
    if c = '\x5c' then
      match cs with
      | [] => !due
      | 'u' :: d₁ :: d₂ :: d₃ :: d₄ :: rest =>
        match hexUnit? d₁ d₂ d₃ d₄ with
        | none => false
        | some unit => isLowUnit unit == due && spellsFrom (isHighUnit unit) rest
      | _ :: rest => !due && spellsFrom false rest
    else !due && spellsFrom false cs

/-- No numeric escape among these characters is half of a pair alone. -/
def spellsCharacters (cs : List Char) : Bool := spellsFrom false cs

/-- The character of an escape of two characters. -/
def shortEscape? (c : Char) : Option Char :=
  if c = '\x22' || c = '\x5c' || c = '/' then some c
  else if c = 'n' then some '\n'
  else if c = 'r' then some '\r'
  else if c = 't' then some '\t'
  else if c = 'b' then some '\x08'
  else if c = 'f' then some '\x0c'
  else none

/-- Reads the characters of a text after its quotation mark; `start` is how many characters were left
at that mark. Each step takes at least one character, so as many steps as there are characters, and one
more, suffice. -/
def readChars (start : Nat) : Nat → List Char → Except Stop (List Char × List Char)
  | 0, _ => .error (.unterminated, start)
  | _ + 1, [] => .error (.unterminated, start)
  | steps + 1, c :: cs =>
    if c = '\x22' then .ok ([], cs)
    else if c = '\x5c' then
      match cs with
      | [] => .error (.unterminated, start)
      | 'u' :: ds =>
        match ds with
        | d₁ :: d₂ :: d₃ :: d₄ :: rest =>
          if rest.isEmpty then .error (.numericEscape, cs.length)
          else
            match hexUnit? d₁ d₂ d₃ d₄ with
            | none => .error (.numericEscape, cs.length)
            | some high =>
              match isHighUnit high, rest with
              | true, '\x5c' :: 'u' :: e₁ :: e₂ :: e₃ :: e₄ :: more =>
                if more.isEmpty then
                  (readChars start steps rest).map fun r => (unitChar high :: r.1, r.2)
                else
                  match hexUnit? e₁ e₂ e₃ e₄ with
                  | none => .error (.numericEscape, rest.length - 1)
                  | some low =>
                    if isLowUnit low then
                      (readChars start steps more).map fun r => (pairChar high low :: r.1, r.2)
                    else (readChars start steps rest).map fun r => (unitChar high :: r.1, r.2)
              | _, _ => (readChars start steps rest).map fun r => (unitChar high :: r.1, r.2)
        | _ => .error (.numericEscape, cs.length)
      | e :: rest =>
        match shortEscape? e with
        | some x => (readChars start steps rest).map fun r => (x :: r.1, r.2)
        | none => .error (.escape, cs.length + 1)
    else if c.toNat < 0x20 then .error (.control, cs.length + 1)
    else (readChars start steps cs).map fun r => (c :: r.1, r.2)

/-- Reads a text after its quotation mark. -/
def readString (cs : List Char) : Except Stop (String × List Char) :=
  (readChars (cs.length + 1) (cs.length + 1) cs).map fun r => (String.ofList r.1, r.2)

/-! ## Numbers -/

/-- The number that digits write. -/
def digitsValue (ds : List Char) : Nat := ds.foldl (fun n d => 10 * n + (d.toNat - 0x30)) 0

/-- The digits at the start, and what follows them. -/
def takeDigits (cs : List Char) : List Char × List Char :=
  (cs.takeWhile Char.isDigit, cs.dropWhile Char.isDigit)

/-- The whole part of a number: a zero alone, or digits that do not start with zero. -/
def takeWhole? : List Char → Option (List Char × List Char)
  | [] => none
  | c :: cs =>
    if c = '0' then some ([c], cs)
    else if c.isDigit then some (takeDigits (c :: cs))
    else none

/-- The digits after a point, if there is a point and a digit after it. -/
def takePlaces (cs : List Char) : List Char × List Char :=
  match cs with
  | '.' :: rest =>
    match takeDigits rest with
    | ([], _) => ([], cs)
    | r => r
  | _ => ([], cs)

/-- The exponent, if there is one with a digit. -/
def takeExponent? (cs : List Char) : Option (Int × List Char) :=
  match cs with
  | c :: rest =>
    if c = 'e' || c = 'E' then
      let (negative, digits) :=
        match rest with
        | '-' :: r => (true, r)
        | '+' :: r => (false, r)
        | r => (false, r)
      match takeDigits digits with
      | ([], _) => none
      | (ds, after) =>
        let n : Int := digitsValue ds
        some (if negative then -n else n, after)
    else none
  | [] => none

/-- Reads a number without its sign. Only a whole one can be too long. -/
def readUnsigned (negative : Bool) (cs : List Char) : Except Stop (Value × List Char) :=
  match takeWhole? cs with
  | none => .error (.value, cs.length)
  | some (whole, afterWhole) =>
    let (places, afterPlaces) := takePlaces afterWhole
    match takeExponent? afterPlaces with
    | some (e, rest) =>
      .ok (.float (.ofDecimal negative (digitsValue (whole ++ places)) (e - places.length)), rest)
    | none =>
      if !places.isEmpty then
        .ok (.float (.ofDecimal negative (digitsValue (whole ++ places)) (-places.length)),
          afterPlaces)
      else if Text.maxDigits < whole.length then .error (.longNumber, cs.length)
      else
        let n : Int := digitsValue whole
        .ok (.int (if negative then -n else n), afterPlaces)

/-- Reads a number, or says that a value was expected where it would start. -/
def readNumber (cs : List Char) : Except Stop (Value × List Char) :=
  let read := match cs with
    | '-' :: rest => readUnsigned true rest
    | _ => readUnsigned false cs
  read.mapError fun e => (e.1, cs.length)

/-! ## Values -/

/-- The words that stand for values. -/
def words : List (List Char × Value) :=
  [("null".toList, .null), ("true".toList, .bool true), ("false".toList, .bool false),
    ("NaN".toList, .float .nan), ("Infinity".toList, .float (.infinite false)),
    ("-Infinity".toList, .float (.infinite true))]

/-- Reads a word. -/
def readWord? (cs : List Char) : Option (Value × List Char) :=
  words.findSome? fun w => if w.1.isPrefixOf cs then some (w.2, cs.drop w.1.length) else none

/-- How many arrays and objects may stand one inside the other. -/
def maxNesting : Nat := 990

mutual

/-- Reads a value in which arrays and objects nest up to some levels. Of two steps in a row one takes a
character, so two steps for each character, and two more, suffice. -/
def readValue : Nat → Nat → List Char → Except Stop (Value × List Char)
  | 0, _, cs => .error (.value, cs.length)
  | _ + 1, _, [] => .error (.value, 0)
  | steps + 1, levels, c :: cs =>
    if c = '\x22' then (readString cs).map fun r => (.str r.1, r.2)
    else if c = '[' then
      match levels, skipSpace cs with
      | 0, _ => .error (.tooDeep, cs.length + 1)
      | _ + 1, ']' :: rest => .ok (.arr [], rest)
      | levels + 1, rest => (readItems steps levels rest).map fun r => (.arr r.1, r.2)
    else if c = '\x7b' then
      match levels, skipSpace cs with
      | 0, _ => .error (.tooDeep, cs.length + 1)
      | _ + 1, '\x7d' :: rest => .ok (.obj [], rest)
      | levels + 1, rest => (readFields steps levels [] rest).map fun r => (.obj r.1, r.2)
    else
      match readWord? (c :: cs) with
      | some r => .ok r
      | none => readNumber (c :: cs)

/-- Reads the items of an array up to its closing bracket. -/
def readItems : Nat → Nat → List Char → Except Stop (List Value × List Char)
  | 0, _, cs => .error (.value, cs.length)
  | steps + 1, levels, cs =>
    match readValue steps levels cs with
    | .error e => .error e
    | .ok (v, rest) =>
      match skipSpace rest with
      | ']' :: after => .ok ([v], after)
      | ',' :: after => (readItems steps levels (skipSpace after)).map fun r => (v :: r.1, r.2)
      | other => .error (.comma, other.length)

/-- Reads the fields of an object up to its closing bracket, after those already read. -/
def readFields : Nat → Nat → List (String × Value) → List Char →
    Except Stop (List (String × Value) × List Char)
  | 0, _, _, cs => .error (.value, cs.length)
  | steps + 1, levels, done, cs =>
    match cs with
    | '\x22' :: afterMark =>
      match readString afterMark with
      | .error e => .error e
      | .ok (key, afterKey) =>
        match skipSpace afterKey with
        | ':' :: afterColon =>
          match readValue steps levels (skipSpace afterColon) with
          | .error e => .error e
          | .ok (v, rest) =>
            match skipSpace rest with
            | '\x7d' :: after => .ok (Value.setField key v done, after)
            | ',' :: after => readFields steps levels (Value.setField key v done) (skipSpace after)
            | other => .error (.comma, other.length)
        | other => .error (.colon, other.length)
    | other => .error (.key, other.length)

end

/-- Reads the value that makes up a text. -/
def decode (text : List Char) : Except Fault Value :=
  match text with
  | '\ufeff' :: _ => .error (.at text .byteOrderMark 0)
  | _ =>
    match readValue (2 * text.length + 2) maxNesting (skipSpace text) with
    | .error (flaw, left) => .error (.at text flaw (text.length - left))
    | .ok (v, rest) =>
      match skipSpace rest with
      | [] => .ok v
      | other => .error (.at text .extra (text.length - other.length))

end RefCheck.Json
