import RefCheck.Data.Value
import RefCheck.Number.Shortest
import RefCheck.Text.Quoted

/-!
# Values in messages

A message shows a value in one of two ways. *Displayed*, a text stands for itself; *quoted*, it stands
between quotation marks. Every other value looks the same in both: `None`, `True` and `False`, numbers in
decimal, arrays in square brackets and objects in curly ones, with what they hold quoted.
-/

namespace RefCheck.Value

/-- The parts with a comma and a space between each two. -/
def commaSeparated : List String → String
  | [] => ""
  | [part] => part
  | part :: parts => part ++ ", " ++ commaSeparated parts

mutual

/-- The value with a text between quotation marks. -/
def quoted : Value → String
  | null => "None"
  | bool b => if b then "True" else "False"
  | int n => toString n
  | float x => x.text
  | str s => Text.quoted s
  | arr items => "[" ++ commaSeparated (quotedItems items) ++ "]"
  | obj fields => "\x7b" ++ commaSeparated (quotedFields fields) ++ "\x7d"

/-- Each item, quoted. -/
def quotedItems : List Value → List String
  | [] => []
  | v :: vs => v.quoted :: quotedItems vs

/-- Each field as its name and its value, quoted. -/
def quotedFields : List (String × Value) → List String
  | [] => []
  | (k, v) :: fields => (Text.quoted k ++ ": " ++ v.quoted) :: quotedFields fields

end

/-- The value with a text as it is. -/
def display : Value → String
  | str s => s
  | v => v.quoted

@[simp] theorem display_str (s : String) : (str s).display = s := rfl

end RefCheck.Value
