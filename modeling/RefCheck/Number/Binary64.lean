/-!
# Binary floating point numbers of 64 bits

A finite number is a mantissa below `2 ^ 53` times a power of two; the least exponent is `-1074` and the
greatest `971`. Numbers are read from decimal digits by rounding to the nearest one, a tie going to the
even mantissa, and overflow to infinity. All arithmetic is exact, on whole numbers, and rounded once.
-/

namespace RefCheck

/-- A binary floating point number of 64 bits. -/
inductive Binary64 where
  /-- The result of an undefined operation. -/
  | nan
  /-- Infinity with a sign. -/
  | infinite (negative : Bool)
  /-- The number `mantissa * 2 ^ exponent` with a sign; zero has a sign too. -/
  | finite (negative : Bool) (mantissa : Nat) (exponent : Int)
  deriving DecidableEq, Repr, Inhabited

namespace Binary64

/-- The least exponent. -/
def minExponent : Int := -1074

/-- The greatest exponent. -/
def maxExponent : Int := 971

/-- The bits of a mantissa. -/
def precision : Nat := 53

/-- The quotient rounded to the nearest whole number, a tie going to the even one. -/
def roundDiv (num den : Nat) : Nat :=
  let q := num / den
  let twice := 2 * (num % den)
  if twice < den then q
  else if den < twice then q + 1
  else if q % 2 = 0 then q
  else q + 1

/-- A fraction as numerator and denominator. -/
abbrev Fraction := Nat × Nat

/-- The fraction times a power of `base`. -/
def scale (base : Nat) (f : Fraction) (e : Int) : Fraction :=
  if e < 0 then (f.1, f.2 * base.pow e.natAbs) else (f.1 * base.pow e.natAbs, f.2)

/-- The greatest `e` with `2 ^ e` at most the fraction, which is positive. -/
def floorLog2 (f : Fraction) : Int :=
  let e : Int := (f.1.log2 : Int) - (f.2.log2 : Int)
  let scaled := scale 2 f (-e)
  if scaled.1 < scaled.2 then e - 1 else e

/-- The number nearest to a positive fraction. -/
def ofFraction (negative : Bool) (f : Fraction) : Binary64 :=
  let e := max (floorLog2 f - (precision - 1 : Nat)) minExponent
  let scaled := scale 2 f (-e)
  let m := roundDiv scaled.1 scaled.2
  let (m, e) := if m = Nat.pow 2 precision then (m / 2, e + 1) else (m, e)
  if maxExponent < e then .infinite negative else .finite negative m e

/-- How many decimal digits a number has. -/
def decimalLength (n : Nat) : Nat := (Nat.toDigits 10 n).length

/-- The number nearest to `digits * 10 ^ exponent`. Exponents far outside the range are settled by
the magnitude alone. -/
def ofDecimal (negative : Bool) (digits : Nat) (exponent : Int) : Binary64 :=
  let magnitude := (decimalLength digits : Int) + exponent
  if digits = 0 || magnitude < -400 then .finite negative 0 minExponent
  else if 400 < magnitude then .infinite negative
  else ofFraction negative (scale 10 (digits, 1) exponent)

/-- The whole part of a finite number. -/
def truncate? : Binary64 → Option Int
  | .finite negative m e =>
    let whole : Nat := if e < 0 then m / Nat.pow 2 e.natAbs else m * Nat.pow 2 e.natAbs
    some (if negative then -(whole : Int) else whole)
  | _ => none

/-- The whole number that the number equals, if there is one. -/
def whole? : Binary64 → Option Int
  | .finite negative m e =>
    if e < 0 && m % Nat.pow 2 e.natAbs != 0 then none else truncate? (.finite negative m e)
  | _ => none

/-- The number is zero, of either sign. -/
def isZero : Binary64 → Bool
  | .finite _ m _ => m == 0
  | _ => false

/-! ## Arithmetic -/

/-- The number nearest to `n * 2 ^ e`; a zero has the given sign. -/
def ofScaled (negativeZero : Bool) (n e : Int) : Binary64 :=
  if n = 0 then .finite negativeZero 0 minExponent
  else ofFraction (n < 0) (scale 2 (n.natAbs, 1) e)

/-- The number nearest to a whole number. -/
def ofInt (n : Int) : Binary64 := ofScaled false n 0

/-- A mantissa with its sign. -/
def signed (negative : Bool) (m : Nat) : Int := if negative then -(m : Int) else m

/-- The sum. Both terms are brought to the lesser exponent, added exactly and rounded once. -/
def add : Binary64 → Binary64 → Binary64
  | .nan, _ | _, .nan => .nan
  | .infinite s, .infinite t => if s = t then .infinite s else .nan
  | .infinite s, .finite .. | .finite .., .infinite s => .infinite s
  | .finite s m e, .finite t n f =>
    let common := min e f
    let first := signed s m * Nat.pow 2 (e - common).toNat
    let second := signed t n * Nat.pow 2 (f - common).toNat
    ofScaled (s && t) (first + second) common

/-- The product, rounded once. -/
def mul : Binary64 → Binary64 → Binary64
  | .nan, _ | _, .nan => .nan
  | .infinite s, .infinite t => .infinite (s != t)
  | .infinite s, .finite t m _ | .finite t m _, .infinite s =>
    if m = 0 then .nan else .infinite (s != t)
  | .finite s m e, .finite t n f => ofScaled (s != t) (signed s m * signed t n) (e + f)

/-- The number with the other sign. -/
def neg : Binary64 → Binary64
  | .nan => .nan
  | .infinite s => .infinite !s
  | .finite s m e => .finite (!s) m e

/-- Changing the sign twice changes nothing. -/
@[simp] theorem neg_neg (x : Binary64) : x.neg.neg = x := by
  cases x <;> simp [neg]

end Binary64

end RefCheck
