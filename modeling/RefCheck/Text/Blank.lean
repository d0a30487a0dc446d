/-!
# Blank characters, trimming and words

A *blank* separates words and may be trimmed from the ends of a text. The set is the white space of
Unicode together with the four information separators `U+001C` to `U+001F`; the zero width space
`U+200B` and the byte order mark `U+FEFF` are not in it.

Texts are lists of characters here, so that every function is a recursion on its text.
-/

namespace RefCheck.Text

/-- The character separates words. -/
def isBlank (c : Char) : Bool :=
  let n := c.toNat
  (0x09 ≤ n && n ≤ 0x0D) || (0x1C ≤ n && n ≤ 0x20) || n == 0x85 || n == 0xA0 || n == 0x1680 ||
    (0x2000 ≤ n && n ≤ 0x200A) || n == 0x2028 || n == 0x2029 || n == 0x202F || n == 0x205F ||
    n == 0x3000

/-! ## Trimming -/

/-- The text from its first character that is not a blank. -/
def trimStart (cs : List Char) : List Char := cs.dropWhile isBlank

/-- The text up to its last character that is not a blank. -/
def trimEnd : List Char → List Char
  | [] => []
  | c :: cs =>
    match trimEnd cs with
    | [] => if isBlank c then [] else [c]
    | kept => c :: kept

/-- The text without the blanks at its two ends. -/
def trim (cs : List Char) : List Char := trimEnd (trimStart cs)

/-- The text from its first character that is not a blank up to the next blank. -/
def firstWord (cs : List Char) : List Char := (trimStart cs).takeWhile (!isBlank ·)

/-- Trimming for strings. -/
def trimString (s : String) : String := String.ofList (trim s.toList)

/-! ## Small laws -/

@[simp] theorem trimStart_nil : trimStart [] = [] := rfl

@[simp] theorem trimEnd_nil : trimEnd [] = [] := rfl

@[simp] theorem trim_nil : trim [] = [] := rfl

theorem trimEnd_cons_of_ne_nil {c : Char} {cs : List Char} (h : trimEnd cs ≠ []) :
    trimEnd (c :: cs) = c :: trimEnd cs := by
  cases hs : trimEnd cs with
  | nil => exact absurd hs h
  | cons d ds => simp [trimEnd, hs]

theorem trimEnd_cons_of_eq_nil {c : Char} {cs : List Char} (h : trimEnd cs = []) :
    trimEnd (c :: cs) = if isBlank c then [] else [c] := by
  simp [trimEnd, h]

/-- A text is trimmed to nothing at its end exactly when it holds blanks only. -/
theorem trimEnd_eq_nil_iff {cs : List Char} : trimEnd cs = [] ↔ ∀ c ∈ cs, isBlank c = true := by
  induction cs with
  | nil => simp
  | cons c cs ih =>
    by_cases h : trimEnd cs = []
    · rw [trimEnd_cons_of_eq_nil h]
      have hall := ih.1 h
      by_cases hc : isBlank c = true <;> simp_all
    · rw [trimEnd_cons_of_ne_nil h]
      have hex := mt ih.2 h
      simp only [List.cons_ne_nil, List.forall_mem_cons, false_iff, not_and]
      exact fun _ => hex

end RefCheck.Text
