import RefCheck.Data.Display
import RefCheck.Fault.Basic
import RefCheck.Text.Digit

/-!
# Whole numbers in model files

Where a model file ought to have a whole number, a truth value counts as one or zero, a floating point
number is cut towards zero, and a text is read as digits. An infinite number is a fault of its own.
-/

namespace RefCheck.Value

/-- The whole number that a value stands for, if it stands for one. -/
def whole? : Value → Except Fault (Option Int)
  | int n => .ok (some n)
  | bool b => .ok (some (if b then 1 else 0))
  | float .nan => .ok none
  | float (.infinite _) => .error (.misshapen .infiniteNumber)
  | float x => .ok x.truncate?
  | str s => .ok (Text.readInt? s.toList)
  | _ => .ok none

end RefCheck.Value
