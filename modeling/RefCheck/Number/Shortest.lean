import RefCheck.Number.Binary64

/-!
# Shortest decimal text of a floating point number

The *shortest* digits of a number are the fewest decimal digits that no other floating point number is
nearer to. For each number of digits the two neighbours of the number on that decimal grid are tested
against the interval of reals that round to it, and the first grid with a hit is taken; of two hits the
nearer one wins, and a tie goes to the even digit.
-/

namespace RefCheck.Binary64

/-- Decimal digits without a point: the number `digits * 10 ^ exponent`. -/
structure Decimal where
  /-- The digits, as one number. -/
  digits : Nat
  /-- The power of ten. -/
  exponent : Int
  deriving DecidableEq, Repr, Inhabited

/-- The ends of the interval of reals that round to `m * 2 ^ e`, in quarters of `2 ^ e`. The gap below
a power of two is half of the gap above it. -/
def quarters (m : Nat) (e : Int) : Nat × Nat :=
  if m = Nat.pow 2 (precision - 1) ∧ minExponent < e then (4 * m - 1, 4 * m + 2)
  else (4 * m - 2, 4 * m + 2)

/-- The decimal point of a positive number: the least `k` with the number below `10 ^ k`, found from an
estimate that is at most one too small. -/
def pointOf (f : Fraction) : Int :=
  let estimate : Int := (floorLog2 f * 30103) / 100000
  let below (k : Int) : Bool :=
    let bound := scale 10 (1, 1) k
    f.1 * bound.2 < bound.1 * f.2
  if below estimate then estimate
  else if below (estimate + 1) then estimate + 1
  else estimate + 2

/-- The better of the two neighbours of a number on the grid of multiples of `10 ^ unit`, if one of
them lies in the interval. -/
def nearestOnGrid? (m : Nat) (e unit : Int) : Option Nat :=
  let toGrid (q : Nat) : Fraction := scale 10 (scale 2 (q, 4) e) (-unit)
  let v := toGrid (4 * m)
  let (lowQ, highQ) := quarters m e
  let low := toGrid lowQ
  let high := toGrid highQ
  let closed := m % 2 == 0
  let inside (n : Nat) : Bool :=
    if closed then low.1 ≤ n * low.2 && n * high.2 ≤ high.1
    else low.1 < n * low.2 && n * high.2 < high.1
  let down := v.1 / v.2
  let up := down + 1
  match inside down, inside up with
  | true, true =>
    let twice := 2 * (v.1 % v.2)
    if twice < v.2 then some down
    else if v.2 < twice then some up
    else if down % 2 = 0 then some down
    else some up
  | true, false => some down
  | false, true => some up
  | false, false => none

/-- Tries grids of `n`, `n + 1`, … digits. -/
def shortestFrom (m : Nat) (e point : Int) : Nat → Nat → Decimal
  | 0, n => ⟨m, n⟩
  | tries + 1, n =>
    match nearestOnGrid? m e (point - n) with
    | some digits => ⟨digits, point - n⟩
    | none => shortestFrom m e point tries (n + 1)

/-- The decimal without the zeros at its end. -/
def Decimal.stripZeros : Nat → Decimal → Decimal
  | 0, d => d
  | tries + 1, d =>
    if d.digits ≠ 0 ∧ d.digits % 10 = 0 then
      Decimal.stripZeros tries ⟨d.digits / 10, d.exponent + 1⟩
    else d

/-- The shortest decimal that reads back as `m * 2 ^ e`, which is positive; seventeen digits always
suffice. -/
def shortest (m : Nat) (e : Int) : Decimal :=
  (shortestFrom m e (pointOf (scale 2 (m, 1) e)) 18 1).stripZeros 20

/-! ## Layout

A number is written positionally while the power of ten of its first digit is from `-4` to `15`, with at
least one digit after the point; other numbers are written with an exponent of at least two digits. -/

/-- The least power of ten that is written positionally. -/
def leastPositional : Int := -4

/-- The least power of ten from which an exponent is written. -/
def leastScientific : Int := 16

/-- An exponent with its sign and at least two digits. -/
def exponentText (e : Int) : String :=
  let digits := toString e.natAbs
  (if e < 0 then "e-" else "e+") ++ (if digits.length < 2 then "0" ++ digits else digits)

/-- The text of a positive decimal. -/
def Decimal.text (d : Decimal) : String :=
  let digits := (toString d.digits).toList
  let count : Int := digits.length
  let power := d.exponent + count - 1
  if power < leastPositional ∨ leastScientific ≤ power then
    match digits with
    | first :: [] => String.ofList [first] ++ exponentText power
    | first :: rest => String.ofList (first :: '.' :: rest) ++ exponentText power
    | [] => ""
  else if power < 0 then
    String.ofList ('0' :: '.' :: List.replicate (power.natAbs - 1) '0' ++ digits)
  else if 0 ≤ d.exponent then
    String.ofList (digits ++ List.replicate d.exponent.natAbs '0') ++ ".0"
  else
    let whole := power.natAbs + 1
    String.ofList (digits.take whole ++ '.' :: digits.drop whole)

/-- The text of a number. -/
def text : Binary64 → String
  | .nan => "nan"
  | .infinite negative => if negative then "-inf" else "inf"
  | .finite negative m e =>
    (if negative then "-" else "") ++ (if m = 0 then "0.0" else (shortest m e).text)

end RefCheck.Binary64
