import RefCheck.Data.Reader
import RefCheck.Moment.Read
import RefCheck.Text.Line
import RefCheck.Text.Split

/-!
# Tags

The tag of a node says what the node is. Where none is written, a list, a mapping and a quoted scalar are
what they look like, and a plain scalar is a text unless it is written like something else: no value, a
truth value, a number, a day or a moment, or one of two signs that only a key can be.

A whole number may have low lines between its digits, one of four bases, or colons between powers of sixty;
a floating point number has a point, and may have low lines and colons too.

A tag can ask that a scalar is read as if it were plain whatever its style. Such a scalar may end in a line
break.
-/

namespace RefCheck.Yaml

open RefCheck.Text

/-- What a node is. -/
inductive Tag where
  /-- No value. -/
  | null
  /-- A truth value. -/
  | bool
  /-- A whole number. -/
  | int
  /-- A floating point number. -/
  | float
  /-- Bytes. -/
  | binary
  /-- A day or a moment. -/
  | timestamp
  /-- A list of pairs of a key and its value. -/
  | pairs
  /-- A set. -/
  | set
  /-- A text. -/
  | str
  /-- A list. -/
  | list
  /-- A mapping. -/
  | map
  /-- The sign of a merge. -/
  | merge
  /-- The sign of a value. -/
  | value
  /-- Anything else. -/
  | other
  deriving DecidableEq, Repr, Inhabited

namespace Tag

/-- How the names of the tags start that have a meaning of their own. -/
def start : String := "tag:yaml.org,2002:"

/-- The tags with a meaning, by the ends of their names. -/
def named : List (String × Tag) :=
  [("null", null), ("bool", bool), ("int", int), ("float", float), ("binary", binary),
    ("timestamp", timestamp), ("omap", pairs), ("pairs", pairs), ("set", set), ("str", str),
    ("seq", list), ("map", map), ("merge", merge), ("value", value)]

/-- The tag of a name. -/
def ofName (name : String) : Tag :=
  match dropLead? start.toList name.toList with
  | some ending => (named.lookup (String.ofList ending)).getD other
  | none => other

/-! ## Plain scalars -/

/-- The ways to write no value. -/
def nullWords : List String := ["", "~", "null", "Null", "NULL"]

/-- The ways to write a truth value. -/
def truthWords : List String :=
  ["yes", "no", "true", "false", "on", "off"].flatMap fun w => [w, w.capitalize, w.map Char.toUpper]

/-- The plain scalars that no value can be: two that only a key can be, and three that start something
else. -/
def signs : List (String × Tag) :=
  [("<<", merge), ("=", value), ("!", other), ("&", other), ("*", other)]

/-- A digit of a base, or a low line. -/
def isDigitOf (base : Nat) (c : Char) : Bool :=
  c == '_' || (Json.hexValue? c).any (· < base)

/-- Digits and low lines that do not start with a low line. -/
def isDecimal : List Char → Bool
  | [] => false
  | d :: ds => d != '_' && (d :: ds).all (isDigitOf 10)

/-- A number below sixty in at most two digits. -/
def isSixtieth : List Char → Bool
  | [d] => d.isDigit
  | [d, e] => '0' ≤ d && d ≤ '5' && e.isDigit
  | _ => false

/-- The text looks like a whole number without a sign. -/
def isUnsigned (cs : List Char) : Bool :=
  match cs with
  | '0' :: 'b' :: ds => !ds.isEmpty && ds.all (isDigitOf 2)
  | '0' :: 'x' :: ds => !ds.isEmpty && ds.all (isDigitOf 16)
  | '0' :: ds => ds.all (isDigitOf 8)
  | cs =>
    match pieces ':' cs with
    | lead :: rest => isDecimal lead && rest.all isSixtieth
    | [] => false

/-- The text looks like a whole number. -/
def isWhole (cs : List Char) : Bool := isUnsigned (takeSign cs).2

/-- The text is empty or an exponent with its sign. -/
def isExponent : List Char → Bool
  | [] => true
  | e :: sign :: ds =>
    (e == 'e' || e == 'E') && (sign == '+' || sign == '-') && !ds.isEmpty && ds.all Char.isDigit
  | _ => false

/-- The text looks like a number with a point; without digits before the point it has no sign. -/
def isPointed (cs : List Char) : Bool :=
  let unsigned := (takeSign cs).2
  let whole := unsigned.takeWhile (isDigitOf 10)
  match unsigned.drop whole.length with
  | '.' :: after =>
    let places := after.takeWhile (isDigitOf 10)
    isExponent (after.drop places.length) &&
      if whole.isEmpty then unsigned.length == cs.length && isDecimal places else isDecimal whole
  | _ => false

/-- The text looks like numbers below sixty with colons between them, the last of them with a point. -/
def isPointedSixtieths (cs : List Char) : Bool :=
  let unsigned := (takeSign cs).2
  let whole := unsigned.takeWhile (· != '.')
  match unsigned.drop whole.length, pieces ':' whole with
  | '.' :: places, lead :: next :: rest =>
    isDecimal lead && (next :: rest).all isSixtieth && places.all (isDigitOf 10)
  | _, _ => false

/-- The ways to write an infinite number, without its sign. -/
def infiniteWords : List String := [".inf", ".Inf", ".INF"]

/-- The ways to write the undefined number. -/
def nanWords : List String := [".nan", ".NaN", ".NAN"]

/-- The text looks like a floating point number. -/
def isFloat (cs : List Char) : Bool :=
  infiniteWords.contains (String.ofList (takeSign cs).2) || nanWords.contains (String.ofList cs) ||
    isPointed cs || isPointedSixtieths cs

/-- The text looks like a day or a moment; a day alone has two digits for the month and two for the
day. -/
def isTimestamp (cs : List Char) : Bool :=
  (Moment.Written.ofText? cs).any fun w => w.clock.isSome || w.isPadded

/-- What a line is. -/
def ofLine (cs : List Char) : Tag :=
  let s := String.ofList cs
  if nullWords.contains s then null
  else if truthWords.contains s then bool
  else if isFloat cs then float
  else if isWhole cs then int
  else if isTimestamp cs then timestamp
  else (signs.lookup s).getD str

/-- What a plain scalar is. The end of its line does not count, but an empty line is a text. -/
def ofPlain (cs : List Char) : Tag := if cs = ['\n'] then str else ofLine (dropLineEnd cs)

end Tag

end RefCheck.Yaml
