import RefCheck.Text.Blank

/-!
# Whole numbers written in any script

Every script's decimal digits are ten code points in a row, from zero to nine, so a table of the zeros
gives each digit its value (Unicode 14, general category `Nd`). A written whole number may have blanks
around it, one sign, and single low lines between its digits; the four information separators are blanks
that do not stand around a number.

In decimal only so many digits are read, because reading them takes time that grows with the square of
their number. A base that is a power of two has no such limit.
-/

namespace RefCheck.Text

/-- The zero of each script outside ASCII. -/
def scriptZeros : Array Nat :=
  #[0x660, 0x6F0, 0x7C0, 0x966, 0x9E6, 0xA66, 0xAE6, 0xB66, 0xBE6, 0xC66, 0xCE6, 0xD66, 0xDE6,
   0xE50, 0xED0, 0xF20, 0x1040, 0x1090, 0x17E0, 0x1810, 0x1946, 0x19D0, 0x1A80, 0x1A90, 0x1B50,
   0x1BB0, 0x1C40, 0x1C50, 0xA620, 0xA8D0, 0xA900, 0xA9D0, 0xA9F0, 0xAA50, 0xABF0, 0xFF10,
   0x104A0, 0x10D30, 0x11066, 0x110F0, 0x11136, 0x111D0, 0x112F0, 0x11450, 0x114D0, 0x11650,
   0x116C0, 0x11730, 0x118E0, 0x11950, 0x11C50, 0x11D50, 0x11DA0, 0x16A60, 0x16AC0, 0x16B50,
   0x1D7CE, 0x1D7D8, 0x1D7E2, 0x1D7EC, 0x1D7F6, 0x1E140, 0x1E2F0, 0x1E950, 0x1FBF0]

/-- The value of a decimal digit of any script. -/
def digitValue? (c : Char) : Option Nat :=
  let n := c.toNat
  if n < 0x80 then
    if c.isDigit then some (n - 0x30) else none
  else
    (scriptZeros.find? fun z => z ≤ n && n ≤ z + 9).map (n - ·)

/-- Reads the digits after a first one, with a single low line allowed before each. -/
def readDigits : Nat → List Char → Option Nat
  | value, [] => some value
  | value, '_' :: c :: cs =>
    match digitValue? c with
    | some d => readDigits (10 * value + d) cs
    | none => none
  | value, c :: cs =>
    match digitValue? c with
    | some d => readDigits (10 * value + d) cs
    | none => none

/-- Reads digits with single low lines between them; there must be at least one digit. -/
def readNat? : List Char → Option Nat
  | [] => none
  | c :: cs =>
    match digitValue? c with
    | some d => readDigits d cs
    | none => none

/-- The character is one of the four information separators. -/
def isSeparator (c : Char) : Bool := 0x1C ≤ c.toNat && c.toNat ≤ 0x1F

/-- The text of a number without the blanks around it. -/
def bareNumber? (cs : List Char) : Option (List Char) :=
  if cs.any isSeparator then none else some (trim cs)

/-- Whether a number has a minus sign, and what follows its sign. -/
def takeSign : List Char → Bool × List Char
  | '-' :: cs => (true, cs)
  | '+' :: cs => (false, cs)
  | cs => (false, cs)

/-- A number of this magnitude. -/
def withSign (negative : Bool) (n : Nat) : Int := if negative then -(n : Int) else n

/-- The most decimal digits of a whole number that is read or written. -/
def maxDigits : Nat := 4300

/-- A text has more decimal digits than are read. -/
def exceedsDigits (cs : List Char) : Bool := maxDigits < cs.countP fun c => (digitValue? c).isSome

/-- Reads a whole number: blanks around it, at most one sign, then digits. -/
def readInt? (cs : List Char) : Option Int := do
  let (negative, ds) := takeSign (← bareNumber? cs)
  if exceedsDigits ds then none else (readNat? ds).map (withSign negative)

/-! ## Other bases -/

/-- The value of a digit of a base up to sixteen: a decimal digit of any script, or a letter. -/
def baseDigit? (c : Char) : Option Nat :=
  if 'a' ≤ c && c ≤ 'f' then some (c.toNat - 0x57)
  else if 'A' ≤ c && c ≤ 'F' then some (c.toNat - 0x37)
  else digitValue? c

/-- Digits without the zero and letter that may announce their base. -/
def dropBaseMark (letter : Char) : List Char → List Char
  | '0' :: l :: ds => if l.toLower = letter then ds else '0' :: l :: ds
  | ds => ds

/-- Reads a whole number to a base of which this letter is the mark. -/
def readBased? (base : Nat) (letter : Char) (cs : List Char) : Option Int := do
  let (negative, ds) := takeSign (← bareNumber? cs)
  let digits ← (dropBaseMark letter ds).mapM fun c => (baseDigit? c).filter (· < base)
  if digits.isEmpty then none
  else return withSign negative (digits.foldl (fun n d => base * n + d) 0)

end RefCheck.Text
