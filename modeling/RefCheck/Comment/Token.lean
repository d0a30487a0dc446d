import RefCheck.Comment.Basic
import RefCheck.Text.Split
import RefCheck.Text.Word

/-!
# Tokens of comment text

Comment text is cut into tokens from left to right. A token is

* *fenced code*: three back-ticks, up to and including the next three, or to the end of the text;
* a *code span*: a back-tick, characters that are neither back-ticks nor line feeds, a back-tick;
* an *inline tag*: `\x7b@`, a name, `\x7d`, where a blank and a body may follow the name;
* plain text: the characters at which none of these starts, as many in a row as there are.

Fenced code is tried first, so its back-ticks never read as spans; nothing inside code is a tag. The
source of the tokens is the text, so nothing is lost.
-/

namespace RefCheck.Comment

open RefCheck.Text

/-- A token of comment text. -/
inductive Token where
  /-- Plain text. -/
  | text (source : List Char)
  /-- Code, with its back-ticks. -/
  | code (source : List Char)
  /-- An inline tag: its name, and all between the name and the closing brace. -/
  | inlineTag (name rest : List Char)
  deriving DecidableEq, Repr, Inhabited

namespace Token

/-- The characters that the token was cut from. -/
def source : Token → List Char
  | text cs => cs
  | code cs => cs
  | inlineTag name rest => '\x7b' :: '@' :: name ++ rest ++ ['\x7d']

/-- The part that the token stands for. -/
def toPart : Token → Part
  | text cs => ⟨.text, String.ofList cs, .null⟩
  | code cs => ⟨.code, String.ofList cs, .null⟩
  | inlineTag name rest => ⟨.inlineTag, String.ofList (trim rest), .str (String.ofList ('@' :: name))⟩

end Token

/-! ## Finding a token at the start of a text -/

/-- The back-tick. -/
def backtick : Char := '\x60'

/-- Three back-ticks. -/
def fence : List Char := [backtick, backtick, backtick]

/-- The text up to and including the first three back-ticks in a row, or all of it if there are none,
and the text after that. -/
def spanFence : List Char → List Char × List Char
  | [] => ([], [])
  | c :: cs =>
    match dropLead? fence (c :: cs) with
    | some rest => (fence, rest)
    | none => (c :: (spanFence cs).1, (spanFence cs).2)

/-- Fenced code at the start of a text. -/
def fenceAt? (cs : List Char) : Option (Token × List Char) :=
  (dropLead? fence cs).map fun inner => (.code (fence ++ (spanFence inner).1), (spanFence inner).2)

/-- The character may stand inside a code span. -/
def inSpan (c : Char) : Bool := c != backtick && c != '\n'

/-- A code span at the start of a text. -/
def spanAt? : List Char → Option (Token × List Char)
  | [] => none
  | c :: cs =>
    if c = backtick then
      match cs.dropWhile inSpan with
      | d :: rest =>
        if d = backtick then some (.code (c :: cs.takeWhile inSpan ++ [d]), rest) else none
      | [] => none
    else none

/-- What follows the name of an inline tag: nothing or a blank and a body, and then the closing brace. -/
def bodyAt? (cs : List Char) : Option (List Char × List Char) :=
  match cs with
  | [] => none
  | c :: _ =>
    if c = '\x7d' || isBlank c then
      match cs.dropWhile (· != '\x7d') with
      | _ :: rest => some (cs.takeWhile (· != '\x7d'), rest)
      | [] => none
    else none

/-- An inline tag at the start of a text. -/
def inlineTagAt? : List Char → Option (Token × List Char)
  | b :: a :: c :: cs =>
    if b = '\x7b' && a = '@' && isAsciiLetter c then
      (bodyAt? (cs.dropWhile isWord)).map fun r =>
        (.inlineTag (c :: cs.takeWhile isWord) r.1, r.2)
    else none
  | _ => none

/-- The token other than plain text at the start of a text. -/
def tokenAt? (cs : List Char) : Option (Token × List Char) :=
  match fenceAt? cs with
  | some r => some r
  | none =>
    match spanAt? cs with
    | some r => some r
    | none => inlineTagAt? cs

/-! ## The source of a token is what it was cut from -/

theorem spanFence_append (cs : List Char) : (spanFence cs).1 ++ (spanFence cs).2 = cs := by
  induction cs with
  | nil => rfl
  | cons c cs ih =>
    unfold spanFence
    split
    · next rest h => exact (dropLead?_eq_some_iff.1 h).symm
    · simp [ih]

theorem fenceAt?_source {cs rest : List Char} {t : Token} (h : fenceAt? cs = some (t, rest)) :
    cs = t.source ++ rest ∧ t.source ≠ [] := by
  simp only [fenceAt?, Option.map_eq_some_iff, Prod.mk.injEq] at h
  obtain ⟨inner, h1, rfl, rfl⟩ := h
  have := dropLead?_eq_some_iff.1 h1
  refine ⟨?_, by simp [Token.source, fence]⟩
  rw [this]
  simp [Token.source, spanFence_append]

theorem spanAt?_source {cs rest : List Char} {t : Token} (h : spanAt? cs = some (t, rest)) :
    cs = t.source ++ rest ∧ t.source ≠ [] := by
  cases cs with
  | nil => simp [spanAt?] at h
  | cons c cs =>
    simp only [spanAt?] at h
    split at h
    · split at h
      · next d r hd =>
        split at h
        · simp only [Option.some.injEq, Prod.mk.injEq] at h
          obtain ⟨rfl, rfl⟩ := h
          refine ⟨?_, by simp [Token.source]⟩
          have := List.takeWhile_append_dropWhile (p := inSpan) (l := cs)
          rw [hd] at this
          simp [Token.source, this]
        · simp at h
      · simp at h
    · simp at h

theorem bodyAt?_append {cs body rest : List Char} (h : bodyAt? cs = some (body, rest)) :
    cs = body ++ '\x7d' :: rest := by
  cases cs with
  | nil => simp [bodyAt?] at h
  | cons c cs =>
    simp only [bodyAt?] at h
    split at h
    · split at h
      · next d r hd =>
        simp only [Option.some.injEq, Prod.mk.injEq] at h
        obtain ⟨rfl, rfl⟩ := h
        have hsplit := List.takeWhile_append_dropWhile (p := (· != '\x7d')) (l := c :: cs)
        rw [hd] at hsplit
        have hdd : d = '\x7d' := by
          have hhead := List.head?_dropWhile_not (· != '\x7d') (c :: cs)
          rw [hd] at hhead
          simpa using hhead
        rw [hdd] at hsplit
        exact hsplit.symm
      · simp at h
    · simp at h

theorem inlineTagAt?_source {cs rest : List Char} {t : Token}
    (h : inlineTagAt? cs = some (t, rest)) : cs = t.source ++ rest ∧ t.source ≠ [] := by
  match cs with
  | [] => simp [inlineTagAt?] at h
  | [_] => simp [inlineTagAt?] at h
  | [_, _] => simp [inlineTagAt?] at h
  | b :: a :: c :: cs =>
    simp only [inlineTagAt?] at h
    split at h
    · next hlead =>
      simp only [Bool.and_eq_true, decide_eq_true_eq] at hlead
      obtain ⟨⟨rfl, rfl⟩, _⟩ := hlead
      simp only [Option.map_eq_some_iff, Prod.mk.injEq, Prod.exists] at h
      obtain ⟨body, r, hb, rfl, rfl⟩ := h
      refine ⟨?_, by simp [Token.source]⟩
      have hname := List.takeWhile_append_dropWhile (p := isWord) (l := cs)
      have hbody := bodyAt?_append hb
      rw [hbody] at hname
      simp only [Token.source, List.cons_append, List.append_assoc, List.nil_append]
      rw [hname]
    · simp at h

/-- A token is cut from the start of the text, and takes at least one character. -/
theorem tokenAt?_source {cs rest : List Char} {t : Token} (h : tokenAt? cs = some (t, rest)) :
    cs = t.source ++ rest ∧ t.source ≠ [] := by
  simp only [tokenAt?] at h
  split at h
  · next r hr => cases h; exact fenceAt?_source hr
  · split at h
    · next r hr => cases h; exact spanAt?_source hr
    · exact inlineTagAt?_source h

theorem length_lt_of_tokenAt? {cs rest : List Char} {t : Token}
    (h : tokenAt? cs = some (t, rest)) : rest.length < cs.length := by
  obtain ⟨h1, h2⟩ := tokenAt?_source h
  have : 0 < t.source.length := List.length_pos_iff.2 h2
  rw [h1, List.length_append]
  omega

/-! ## Cutting a text -/

/-- Puts a character before tokens; it joins the plain text at their start if there is some. -/
def pushText (c : Char) : List Token → List Token
  | .text cs :: ts => .text (c :: cs) :: ts
  | ts => .text [c] :: ts

/-- The tokens of a text. -/
def tokens (cs : List Char) : List Token :=
  match cs with
  | [] => []
  | c :: rest =>
    match _h : tokenAt? (c :: rest) with
    | some (t, after) => t :: tokens after
    | none => pushText c (tokens rest)
termination_by cs.length
decreasing_by
  · exact length_lt_of_tokenAt? _h
  · simp

theorem source_pushText (c : Char) (ts : List Token) :
    (pushText c ts).flatMap Token.source = c :: ts.flatMap Token.source := by
  cases ts with
  | nil => simp [pushText, Token.source]
  | cons t ts => cases t <;> simp [pushText, Token.source]

/-- The sources of the tokens of a text are the text: nothing is lost. -/
theorem source_tokens (cs : List Char) : (tokens cs).flatMap Token.source = cs := by
  induction cs using tokens.induct with
  | case1 => simp [tokens]
  | case2 c rest t after h ih =>
    rw [tokens]
    split
    · next t' after' h' =>
      rw [h] at h'
      cases h'
      simp only [List.flatMap_cons, ih]
      exact (tokenAt?_source h).1.symm
    · next h' => rw [h] at h'; cases h'
  | case3 c rest h ih =>
    rw [tokens]
    split
    · next t' after' h' => rw [h] at h'; cases h'
    · rw [source_pushText, ih]

/-- The parts of a text. -/
def partsOf (cs : List Char) : List Part := (tokens cs).map Token.toPart

/-- The parts of a string. -/
def parseParts (s : String) : List Part := partsOf s.toList

end RefCheck.Comment
