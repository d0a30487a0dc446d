import RefCheck.Text.Printable

/-!
# Quoted text

A text is quoted so that it can be told apart from the words around it and holds no character that
would not show. The quote is `U+0027` unless the text holds that character and no `U+0022`. Inside, the
backslash, the quote and three controls have two-character forms, and every other character that is not
printable is written by its number in hexadecimal.
-/

namespace RefCheck.Text

/-- The single quotation mark. -/
def singleQuote : Char := '\x27'

/-- The double quotation mark. -/
def doubleQuote : Char := '\x22'

/-- The backslash. -/
def backslash : Char := '\x5c'

/-- A hexadecimal digit, in lower case. -/
def hexDigit (n : Nat) : Char :=
  if n < 10 then Char.ofNat (0x30 + n) else Char.ofNat (0x57 + n)

/-- The last `width` hexadecimal digits of a number. -/
def hexFixed : Nat → Nat → List Char
  | 0, _ => []
  | width + 1, n => hexFixed width (n / 16) ++ [hexDigit (n % 16)]

/-- The number of a character, in the shortest of three widths. -/
def numericEscape (c : Char) : List Char :=
  let n := c.toNat
  if n < 0x100 then backslash :: 'x' :: hexFixed 2 n
  else if n < 0x10000 then backslash :: 'u' :: hexFixed 4 n
  else backslash :: 'U' :: hexFixed 8 n

/-- One character between quotes. -/
def quotedChar (quote c : Char) : List Char :=
  if c = quote || c = backslash then [backslash, c]
  else if c = '\n' then [backslash, 'n']
  else if c = '\r' then [backslash, 'r']
  else if c = '\t' then [backslash, 't']
  else if isPrintable c then [c]
  else numericEscape c

/-- The quotation mark for a text. -/
def quoteFor (cs : List Char) : Char :=
  if cs.contains singleQuote && !cs.contains doubleQuote then doubleQuote else singleQuote

/-- A text between quotation marks. -/
def quotedChars (cs : List Char) : List Char :=
  quoteFor cs :: cs.flatMap (quotedChar (quoteFor cs)) ++ [quoteFor cs]

/-- A string between quotation marks. -/
def quoted (s : String) : String := String.ofList (quotedChars s.toList)

end RefCheck.Text
