/-!
# Similar words

How similar two words are is told by the blocks of characters that they share: the longest block counts,
and then in turn what the words share before it and after it. Of several longest blocks the one that
starts first counts. Two words are *close* if three fifths of their characters are in shared blocks.
-/

namespace RefCheck.Text

/-- How many characters two texts share at their start. -/
def commonStart : List Char → List Char → Nat
  | a :: as, b :: bs => if a = b then commonStart as bs + 1 else 0
  | _, _ => 0

/-- A block that two texts share. -/
structure Block where
  /-- Its length. -/
  size : Nat
  /-- Where it starts in the first text. -/
  first : Nat
  /-- Where it starts in the second text. -/
  second : Nat
  deriving DecidableEq, Repr, Inhabited

/-- The longer of two blocks; the earlier one, if they are equally long. -/
def Block.longer (a b : Block) : Block := if a.size < b.size then b else a

/-- The longest block that two texts share. -/
def longestBlock (a b : List Char) : Block :=
  (List.range a.length).foldl (fun best i =>
    (List.range b.length).foldl (fun best j =>
      best.longer ⟨commonStart (a.drop i) (b.drop j), i, j⟩) best) ⟨0, 0, 0⟩

/-- How many characters of two texts are in shared blocks. Every block has a character, so as many steps as
there are characters suffice. -/
def sharedIn : Nat → List Char → List Char → Nat
  | 0, _, _ => 0
  | steps + 1, a, b =>
    let block := longestBlock a b
    if block.size = 0 then 0
    else
      block.size + sharedIn steps (a.take block.first) (b.take block.second) +
        sharedIn steps (a.drop (block.first + block.size)) (b.drop (block.second + block.size))

/-- How many characters of two texts are in shared blocks. -/
def shared (a b : List Char) : Nat := sharedIn a.length a b

/-- The words are close. -/
def isClose (a b : String) : Bool :=
  3 * (a.length + b.length) ≤ 10 * shared a.toList b.toList

/-- The word `a` shares more of its characters with `word` than `b` does; of equal ones the later in the
order of words comes first. -/
def isCloser (word a b : String) : Bool :=
  let scoreA := shared a.toList word.toList * (b.length + word.length)
  let scoreB := shared b.toList word.toList * (a.length + word.length)
  scoreB < scoreA || (scoreA == scoreB && !decide (a < b))

/-- At most three words that are close to a word, in the order of words. -/
def closeWords (word : String) (words : List String) : List String :=
  let close := words.filter fun w => isClose w word
  let best := (close.mergeSort (isCloser word)).take 3
  best.mergeSort fun a b => !decide (b < a)

end RefCheck.Text
