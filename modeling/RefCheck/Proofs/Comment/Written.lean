import RefCheck.Proofs.Comment.Sections
import RefCheck.Proofs.Comment.Tokens

/-!
# Comments as they are written

How a comment is written as text: decorated, the lines of the summary first, then for each block tag a line
with its name and the lines of its content. A comment is *canonical* if each part is written the way the
cutting into tokens finds it, and no line outside fenced code would be read as a block tag or as fenced code.
-/

namespace RefCheck.Comment

open RefCheck.Text

/-! ## Writing -/

/-- The characters of a tag name. -/
def tagChars : Value → List Char
  | .str name => name.toList
  | _ => []

/-- A part as it is written. -/
def sourceOfPart (p : Part) : List Char :=
  match p.kind with
  | .text => p.text.toList
  | .code => p.text.toList
  | .inlineTag =>
    let body := p.text.toList
    '\x7b' :: tagChars p.tag ++ (if body = [] then [] else ' ' :: body) ++ ['\x7d']

/-- Parts as they are written. -/
def sourceOf (parts : List Part) : List Char := parts.flatMap sourceOfPart

/-- The lines of a block tag: its name, and those of its content. -/
def tagLines (t : BlockTag) : List (List Char) := tagChars t.tag :: splitLines (sourceOf t.content)

/-- The lines of a comment without decoration. -/
def plainLines (c : Comment) : List (List Char) :=
  splitLines (sourceOf c.summary) ++ c.blockTags.flatMap tagLines

/-- The lines of a comment with its decoration. -/
def decorate (lines : List (List Char)) : List (List Char) :=
  "/**".toList :: lines.map (" * ".toList ++ ·) ++ [" */".toList]

/-- The text of a comment. -/
def write (c : Comment) : String := String.ofList (joinLines (decorate (plainLines c)))

/-! ## Canonical parts -/

/-- The part is fenced code. -/
def isFenced (p : Part) : Bool := p.kind == .code && startsWith fence p.text.toList

/-- A part that is written the way the cutting into tokens finds it. -/
inductive IsCanonicalPart : Part → Prop
  /-- Plain text in which no other part starts. -/
  | text {cs : List Char} (hne : cs ≠ []) (hback : backtick ∉ cs) (hopen : ¬['\x7b', '@'] <:+: cs) :
    IsCanonicalPart ⟨.text, String.ofList cs, .null⟩
  /-- A code span. -/
  | span {cs : List Char} (hne : cs ≠ []) (hspan : ∀ c ∈ cs, inSpan c = true) :
    IsCanonicalPart ⟨.code, String.ofList (backtick :: cs ++ [backtick]), .null⟩
  /-- Fenced code: on its first line what follows three back-ticks, on its last line three back-ticks. -/
  | fenced {cs : List Char} (hback : backtick ∉ cs) :
    IsCanonicalPart ⟨.code, String.ofList (fence ++ cs ++ '\n' :: fence), .null⟩
  /-- An inline tag. -/
  | inlineTag {c : Char} {name body : List Char} (hc : isAsciiLetter c = true)
    (hname : ∀ d ∈ name, isWord d = true) (htrim : trim body = body) (hbody : '\x7d' ∉ body) :
    IsCanonicalPart ⟨.inlineTag, String.ofList body, .str (String.ofList ('@' :: c :: name))⟩

/-- No two plain texts stand side by side. -/
def TextsApart : List Part → Prop
  | [] => True
  | p :: parts => (p.kind = .text → ∀ q ∈ parts.head?, q.kind ≠ .text) ∧ TextsApart parts

instance decidableTextsApart : (parts : List Part) → Decidable (TextsApart parts)
  | [] => inferInstanceAs (Decidable True)
  | p :: parts =>
    have := decidableTextsApart parts
    have : Decidable (∀ q ∈ parts.head?, q.kind ≠ .text) := Option.decidableForallMem _
    inferInstanceAs
      (Decidable ((p.kind = .text → ∀ q ∈ parts.head?, q.kind ≠ .text) ∧ TextsApart parts))

/-- Fenced code takes whole lines. `before` is what is written before the parts. -/
def WholeLines (before : List Char) : List Part → Prop
  | [] => True
  | p :: parts =>
    (isFenced p = true → StartsLine before ∧ EndsLine (sourceOf parts)) ∧
      WholeLines (before ++ sourceOfPart p) parts

instance decidableWholeLines : (before : List Char) → (parts : List Part) →
    Decidable (WholeLines before parts)
  | _, [] => inferInstanceAs (Decidable True)
  | before, p :: parts =>
    have := decidableWholeLines (before ++ sourceOfPart p) parts
    inferInstanceAs (Decidable
      ((isFenced p = true → StartsLine before ∧ EndsLine (sourceOf parts)) ∧
        WholeLines (before ++ sourceOfPart p) parts))

/-- The text of the parts without the fenced code, whose lines are left empty. -/
def outsideFences (parts : List Part) : List Char := sourceOf (parts.filter (!isFenced ·))

/-- Parts that are read back from the lines they are written in. -/
structure IsCanonicalSection (parts : List Part) : Prop where
  /-- Each part is canonical. -/
  canonical : ∀ p ∈ parts, IsCanonicalPart p
  /-- Plain texts are not cut. -/
  texts_apart : TextsApart parts
  /-- Fenced code takes whole lines. -/
  whole_lines : WholeLines [] parts
  /-- The only line break is the line feed. -/
  only_feeds : OnlyFeeds (sourceOf parts)
  /-- There are no blanks at the ends. -/
  trimmed : trim (sourceOf parts) = sourceOf parts
  /-- No line outside fenced code would open a block tag or fenced code. Only the body of an inline tag could
  hold a line of the second kind. -/
  plain : ∀ line ∈ splitLines (outsideFences parts), IsPlain line

/-- A name of a block tag that opens it, with the at sign. -/
inductive IsTagName : Value → Prop
  | mk {c : Char} {name : List Char} (hc : isAsciiLetter c = true)
    (hname : ∀ d ∈ name, isTagChar d = true) : IsTagName (.str (String.ofList ('@' :: c :: name)))

/-- A comment that is read back from the text it is written in. -/
structure IsCanonical (c : Comment) : Prop where
  /-- The summary can be read back. -/
  summary : IsCanonicalSection c.summary
  /-- Every block tag has a name that opens it. -/
  names : ∀ t ∈ c.blockTags, IsTagName t.tag
  /-- The content of every block tag can be read back. -/
  contents : ∀ t ∈ c.blockTags, IsCanonicalSection t.content

end RefCheck.Comment
