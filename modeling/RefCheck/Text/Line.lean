/-!
# Lines of a text

Ten characters end a line, and a carriage return with the line feed after it ends one line. The last
line needs no ending, so a text that ends with a line break has no empty line after it.
-/

namespace RefCheck.Text

/-- The character ends a line. -/
def isLineBreak (c : Char) : Bool :=
  let n := c.toNat
  (0x0A ≤ n && n ≤ 0x0D) || (0x1C ≤ n && n ≤ 0x1E) || n == 0x85 || n == 0x2028 || n == 0x2029

/-- The lines of a text, without the characters that end them. -/
def splitLines : List Char → List (List Char)
  | [] => []
  | '\r' :: '\n' :: cs => [] :: splitLines cs
  | c :: cs =>
    if isLineBreak c then [] :: splitLines cs
    else
      match splitLines cs with
      | [] => [[c]]
      | line :: lines => (c :: line) :: lines

/-- The lines with a line feed between each two. -/
def joinLines : List (List Char) → List Char
  | [] => []
  | [line] => line
  | line :: lines => line ++ '\n' :: joinLines lines

/-- The text with every carriage return, and every carriage return before a line feed, as one line
feed. -/
def unifyBreaks : List Char → List Char
  | [] => []
  | '\r' :: '\n' :: cs => '\n' :: unifyBreaks cs
  | '\r' :: cs => '\n' :: unifyBreaks cs
  | c :: cs => c :: unifyBreaks cs

/-- The text without a line feed at its end. -/
def dropLineEnd : List Char → List Char
  | [] | ['\n'] => []
  | c :: cs => c :: dropLineEnd cs

@[simp] theorem splitLines_nil : splitLines [] = [] := rfl

@[simp] theorem joinLines_nil : joinLines [] = [] := rfl

@[simp] theorem joinLines_singleton (line : List Char) : joinLines [line] = line := rfl

theorem joinLines_cons_cons (a b : List Char) (lines : List (List Char)) :
    joinLines (a :: b :: lines) = a ++ '\n' :: joinLines (b :: lines) := rfl

end RefCheck.Text
