import RefCheck.Number.Binary64
import RefCheck.Text.Digit

/-!
# Floating point numbers written in decimal

A written number may have blanks around it and one sign. It is infinite, undefined, or decimal digits of
any script with at most one point among them and at most one exponent behind them. There has to be a digit
before or after the point, and one in the exponent.
-/

namespace RefCheck.Binary64

open RefCheck.Text

/-- The words for an infinite number, with small letters. -/
def infiniteWords : List String := ["inf", "infinity"]

/-- The word for the undefined number, with small letters. -/
def nanWord : String := "nan"

/-- The digits at the start of a text, and what follows them. -/
def takeDigits (cs : List Char) : List Nat × List Char :=
  ((cs.takeWhile fun c => (digitValue? c).isSome).filterMap digitValue?,
    cs.dropWhile fun c => (digitValue? c).isSome)

/-- The number that decimal digits write. -/
def ofDigits (ds : List Nat) : Nat := ds.foldl (fun n d => 10 * n + d) 0

/-- Reads an exponent with its letter; nothing at all stands for zero. -/
def readExponent? : List Char → Option Int
  | [] => some 0
  | c :: cs =>
    if c = 'e' || c = 'E' then
      let (negative, ds) := takeSign cs
      match takeDigits ds with
      | ([], _) => none
      | (digits, []) => some (withSign negative (ofDigits digits))
      | _ => none
    else none

/-- Reads a number that is written with digits. -/
def readDecimal? (negative : Bool) (cs : List Char) : Option Binary64 :=
  let (whole, rest) := takeDigits cs
  let (places, rest) :=
    match rest with
    | '.' :: after => takeDigits after
    | _ => ([], rest)
  if whole.isEmpty && places.isEmpty then none
  else
    (readExponent? rest).map fun e => ofDecimal negative (ofDigits (whole ++ places)) (e - places.length)

/-- Reads a written number. -/
def ofText? (cs : List Char) : Option Binary64 := do
  let (negative, unsigned) := takeSign (← bareNumber? cs)
  let word := String.ofList (unsigned.map Char.toLower)
  if infiniteWords.contains word then return .infinite negative
  else if word = nanWord then return .nan
  else readDecimal? negative unsigned

end RefCheck.Binary64
