/-!
# Colours in texts

A terminal takes *control sequences* as orders to set colours or to move about: an escape character, an
opening square bracket, parameters, characters in between, and a last character that says what to do. Each
of the three comes from a row of ASCII characters of its own. `dropColours` takes such sequences out of a
text that no terminal reads; an escape character that starts none stays.

The text is read once. What may yet become a sequence waits, in reverse order, until the next character
settles it.
-/

namespace RefCheck.Text

/-- The character that starts a sequence. -/
def escapeChar : Char := '\x1b'

/-- The character is a parameter: a digit, or a sign between the digits and the letters. -/
def isParameter (c : Char) : Bool := 0x30 ≤ c.toNat && c.toNat ≤ 0x3F

/-- The character stands between the parameters and the last character: the space, or a sign before the
digits. -/
def isBetween (c : Char) : Bool := 0x20 ≤ c.toNat && c.toNat ≤ 0x2F

/-- The character can be the last of a sequence: a letter, or a sign among the letters. -/
def isOrder (c : Char) : Bool := 0x40 ≤ c.toNat && c.toNat ≤ 0x7E

/-- What waits when `waiting` is followed by a character, and what of both is settled. -/
def colourStep (waiting : List Char) (c : Char) : List Char × List Char :=
  if c = escapeChar then ([c], waiting.reverse)
  else
    match waiting with
    | [] => ([], [c])
    | [_] => if c = '[' then (c :: waiting, []) else ([], waiting.reverse ++ [c])
    | last :: _ =>
      if isBetween c || isParameter c && !isBetween last then (c :: waiting, [])
      else if isOrder c then ([], [])
      else ([], waiting.reverse ++ [c])

/-- The text without sequences, after what waits. -/
def dropColoursFrom (waiting : List Char) : List Char → List Char
  | [] => waiting.reverse
  | c :: cs =>
    let (waiting, settled) := colourStep waiting c
    settled ++ dropColoursFrom waiting cs

/-- The text without sequences. -/
def dropColours (cs : List Char) : List Char := dropColoursFrom [] cs

/-- A text without escape characters stays as it is. -/
theorem dropColours_of_not_mem {cs : List Char} (h : escapeChar ∉ cs) : dropColours cs = cs := by
  unfold dropColours
  induction cs with
  | nil => rfl
  | cons c cs ih =>
    have hc : c ≠ escapeChar := fun e => h (e ▸ List.mem_cons_self)
    simp [dropColoursFrom, colourStep, hc, ih fun hm => h (List.mem_cons_of_mem c hm)]

end RefCheck.Text
