import RefCheck.Data.Utf8
import RefCheck.Text.Line
import RefCheck.Yaml.Token

/-!
# Settings files in pieces

A settings file is not read as a whole. Its bytes are decoded block by block, its characters are taken piece by
piece, and a piece is only asked for where what is known does not suffice to go on. So a mistake in one piece is
met before whatever is wrong in a later one, be it bytes that are no text or a character that may not stand in a
settings file.

Such a flaw is met with the block or the piece that holds it, and nothing of that block or piece is known then.
-/

namespace RefCheck.Yaml

/-- Why no more is known of a file. -/
inductive Extent where
  /-- There is no more. -/
  | whole
  /-- Bytes follow that are no text. -/
  | noText
  /-- A character follows that may not stand in a settings file. -/
  | notAllowed
  deriving DecidableEq, Repr, Inhabited

/-- What a reader gets of a file. -/
structure Input where
  /-- The text that is known. -/
  text : List Char
  /-- Why there is no more. -/
  extent : Extent
  deriving Repr, Inhabited

namespace Input

/-- How many bytes make a block. -/
def blockSize : Nat := 8192

/-- How many characters make a piece. -/
def pieceSize : Nat := 4096

/-- How many characters stand in the pieces before the one with the character at a position. The first two pieces
are read at once. -/
def pieceStart (position : Nat) : Nat :=
  if position < 2 * pieceSize then 0 else position / pieceSize * pieceSize

/-- The characters that bytes encode, without one that is cut off at their end: at most three bytes of it are
there. -/
def decodedPart (bytes : List UInt8) : List Char :=
  ((List.range 4).findSome? fun n => (Utf8.decode (bytes.take (bytes.length - n))).toOption).getD []

/-- The bytes of the blocks before the one that shows a fault. That there is no more of a character shows only when
all bytes were read. -/
def blocksBefore (bytes : List UInt8) (f : Utf8.Fault) : List UInt8 :=
  match f.flaw with
  | .start => bytes.take (f.position / blockSize * blockSize)
  | .continuation => bytes.take ((f.position + f.count) / blockSize * blockSize)
  | .truncated => bytes

/-- What a reader gets of a text of which no more can be decoded for a reason. -/
def ofText (text : List Char) (extent : Extent) : Input :=
  match text.findIdx? fun c => !isAllowed c with
  | some n => ⟨text.take (pieceStart n), .notAllowed⟩
  | none => ⟨text, extent⟩

/-- What a reader gets of the file with these bytes. -/
def ofBytes (bytes : List UInt8) : Input :=
  match Utf8.decode bytes with
  | .ok text => ofText (Text.unifyBreaks text) .whole
  | .error f =>
    let text := Text.unifyBreaks (decodedPart (blocksBefore bytes f))
    ofText (text.take (pieceStart text.length)) .noText

end Input

end RefCheck.Yaml
