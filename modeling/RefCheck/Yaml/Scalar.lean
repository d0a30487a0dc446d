import RefCheck.Number.Written
import RefCheck.Yaml.Data
import RefCheck.Yaml.Tag
import RefCheck.Yaml.Token

/-!
# What scalars mean

The tag of a scalar says how its text is read. A tag that was found from the text fits it; one that was
written need not, and then the scalar may have no value. In numbers low lines count for nothing.
-/

namespace RefCheck.Yaml

open RefCheck.Text

namespace Scalar

/-- A number that was read, or the lack of one. -/
def orNoNumber {α : Type} : Option α → Except Unreadable α
  | some a => .ok a
  | none => .error .noNumber

/-- The characters that count in a number. -/
def counting (cs : List Char) : List Char := cs.filter (· != '_')

/-! ## Whole numbers -/

/-- Reads a whole number in decimal. -/
def readDecimal (cs : List Char) : Except Unreadable Int :=
  if exceedsDigits cs then .error .longNumber else orNoNumber (readInt? cs)

/-- The number that some numbers make up as its places to the base of sixty, the greatest first. -/
def ofSixtieths (places : List Int) : Int := places.foldl (fun n d => 60 * n + d) 0

/-- Reads a whole number without its sign. -/
def readUnsigned (cs : List Char) : Except Unreadable Int :=
  match cs with
  | [] => .error .nothing
  | ['0'] => .ok 0
  | '0' :: 'b' :: ds => orNoNumber (readBased? 2 'b' ds)
  | '0' :: 'x' :: ds => orNoNumber (readBased? 16 'x' ds)
  | '0' :: ds => orNoNumber (readBased? 8 'o' ('0' :: ds))
  | cs =>
    if cs.contains ':' then (pieces ':' cs).mapM readDecimal |>.map ofSixtieths
    else readDecimal cs

/-- Reads a whole number. -/
def readWhole (cs : List Char) : Except Unreadable Int :=
  let cs := counting cs
  if cs.isEmpty then .error .nothing
  else
    let (negative, unsigned) := takeSign cs
    (readUnsigned unsigned).map fun n => if negative then -n else n

/-! ## Floating point numbers -/

/-- Sixty to a power, as a floating point number. -/
def powerOfSixty (n : Nat) : Except Unreadable Binary64 :=
  match Binary64.ofInt (Nat.pow 60 n) with
  | .infinite _ => .error .hugePower
  | x => .ok x

/-- The sum of numbers times powers of sixty, the least power first. Every product and every sum is rounded
on its own. -/
def sumSixtieths (sum : Binary64) (power : Nat) : List Binary64 → Except Unreadable Binary64
  | [] => .ok sum
  | x :: xs => do sumSixtieths (sum.add (x.mul (← powerOfSixty power))) (power + 1) xs

/-- Reads a floating point number. -/
def readFloat (cs : List Char) : Except Unreadable Binary64 :=
  let cs := (counting cs).map Char.toLower
  if cs.isEmpty then .error .nothing
  else
    let (negative, unsigned) := takeSign cs
    let magnitude : Except Unreadable Binary64 :=
      if unsigned = ".inf".toList then .ok (.infinite false)
      else if unsigned = ".nan".toList then .ok .nan
      else if unsigned.contains ':' then do
        let places ← (pieces ':' unsigned).mapM fun piece => orNoNumber (Binary64.ofText? piece)
        sumSixtieths (.finite false 0 Binary64.minExponent) 0 places.reverse
      else orNoNumber (Binary64.ofText? unsigned)
    magnitude.map fun x => if negative then x.neg else x

/-! ## Other values -/

/-- The truth values of words in small letters. -/
def truths : List (String × Bool) :=
  [("yes", true), ("no", false), ("true", true), ("false", false), ("on", true), ("off", false)]

/-- Reads a truth value. -/
def readTruth (cs : List Char) : Except Unreadable Bool :=
  match truths.lookup (String.ofList (cs.map Char.toLower)) with
  | some b => .ok b
  | none => .error .noTruth

/-- Reads a day or a moment, which may stand on a line of its own. -/
def readTimestamp (cs : List Char) : Except Unreadable Scalar :=
  match Moment.Written.ofText? (dropLineEnd cs) with
  | none => .error .notLikeMoment
  | some w =>
    let read := if w.clock.isSome then w.moment?.map moment else w.date?.map date
    match read with
    | some s => .ok s
    | none => .error .noMoment

/-- Reads a text as what a tag says. A tag of lists and mappings, and a sign, is a mistake. -/
def ofText (tag : Tag) (cs : List Char) : Except Mistake Scalar :=
  let read (r : Except Unreadable Scalar) : Except Mistake Scalar := r.mapError .unreadable
  match tag with
  | .null => .ok null
  | .bool => read ((readTruth cs).map bool)
  | .int => read ((readWhole cs).map int)
  | .float => read ((readFloat cs).map float)
  | .timestamp => read (readTimestamp cs)
  | .str => .ok (str (String.ofList cs))
  | .binary =>
    match Bytes.ofText? cs with
    | some bs => .ok (bytes bs)
    | none => .error .malformed
  | .pairs | .set | .list | .map | .merge | .value | .other => .error .malformed

end Scalar

end RefCheck.Yaml
