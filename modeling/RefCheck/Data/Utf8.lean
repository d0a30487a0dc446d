/-!
# Text encoded as UTF-8

Decoding reads one character at a time and stops at the first byte that no character can start or
continue with. A fault says which bytes are at fault and why: a byte that starts no character, a byte
that does not continue the character before it, or an end inside a character.
-/

namespace RefCheck.Utf8

/-- Why bytes are no text. -/
inductive Flaw where
  /-- The byte starts no character. -/
  | start
  /-- The byte after these does not continue the character. -/
  | continuation
  /-- The bytes end inside a character. -/
  | truncated
  deriving DecidableEq, Repr, Inhabited

/-- Bytes that are no text. -/
structure Fault where
  /-- What is wrong. -/
  flaw : Flaw
  /-- The first byte at fault. -/
  byte : Nat
  /-- The position of that byte. -/
  position : Nat
  /-- How many bytes are at fault. -/
  count : Nat
  deriving DecidableEq, Repr, Inhabited

/-- The wording of a flaw. -/
def Flaw.message : Flaw → String
  | start => "invalid start byte"
  | continuation => "invalid continuation byte"
  | truncated => "unexpected end of data"

/-- Two hexadecimal digits of a byte. -/
def hexByte (n : Nat) : String :=
  let digit (d : Nat) : Char := if d < 10 then Char.ofNat (0x30 + d) else Char.ofNat (0x57 + d)
  String.ofList [digit (n / 16), digit (n % 16)]

/-- The wording of a fault. -/
def Fault.message (f : Fault) : String :=
  if f.count = 1 then
    "'utf-8' codec can't decode byte 0x" ++ hexByte f.byte ++ " in position " ++
      toString f.position ++ ": " ++ f.flaw.message
  else
    "'utf-8' codec can't decode bytes in position " ++ toString f.position ++ "-" ++
      toString (f.position + f.count - 1) ++ ": " ++ f.flaw.message

/-- The byte continues a character. -/
def isContinuation (b : Nat) : Bool := 0x80 ≤ b && b ≤ 0xBF

/-- The least and greatest second byte after a first byte. Four first bytes admit fewer than all
continuation bytes: the others would write a character too long, a surrogate, or a number above
`U+10FFFF`. -/
def secondRange (first : Nat) : Nat × Nat :=
  if first = 0xE0 then (0xA0, 0xBF)
  else if first = 0xED then (0x80, 0x9F)
  else if first = 0xF0 then (0x90, 0xBF)
  else if first = 0xF4 then (0x80, 0x8F)
  else (0x80, 0xBF)

/-- How many bytes follow a first byte, if it starts a character. -/
def following? (first : Nat) : Option Nat :=
  if first < 0x80 then some 0
  else if first < 0xC2 then none
  else if first < 0xE0 then some 1
  else if first < 0xF0 then some 2
  else if first < 0xF5 then some 3
  else none

/-- The bits that a first byte contributes. -/
def leadBits (first : Nat) : Nat :=
  if first < 0x80 then first
  else if first < 0xE0 then first % 0x20
  else if first < 0xF0 then first % 0x10
  else first % 0x08

/-- Whether `b` may stand at place `n` of a character with this first byte. -/
def mayFollow (first n b : Nat) : Bool :=
  if n = 1 then (secondRange first).1 ≤ b && b ≤ (secondRange first).2 else isContinuation b

/-- Reads `wanted` more bytes of the character that `first` starts, of which `done` are read. The
result is its number and the bytes after it, or the flaw and how many bytes are at fault. -/
def readRest (first : Nat) : Nat → Nat → Nat → List UInt8 →
    Except (Flaw × Nat) (Nat × List UInt8)
  | 0, _, value, bytes => .ok (value, bytes)
  | _ + 1, done, _, [] => .error (.truncated, done)
  | wanted + 1, done, value, b :: bytes =>
    if mayFollow first done b.toNat then
      readRest first wanted (done + 1) (value * 0x40 + b.toNat % 0x40) bytes
    else .error (.continuation, done)

/-- Decodes bytes from a position on. Each step takes at least one byte, so as many steps as there are
bytes suffice. -/
def decodeFrom : Nat → Nat → List UInt8 → Except Fault (List Char)
  | 0, _, _ => .ok []
  | _ + 1, _, [] => .ok []
  | steps + 1, position, b :: bytes =>
    let first := b.toNat
    match following? first with
    | none => .error ⟨.start, first, position, 1⟩
    | some wanted =>
      match readRest first wanted 1 (leadBits first) bytes with
      | .error (flaw, count) => .error ⟨flaw, first, position, count⟩
      | .ok (value, rest) =>
        match decodeFrom steps (position + 1 + wanted) rest with
        | .error f => .error f
        | .ok cs => .ok (Char.ofNat value :: cs)

/-- The characters that the bytes encode. -/
def decode (bytes : List UInt8) : Except Fault (List Char) := decodeFrom bytes.length 0 bytes

end RefCheck.Utf8
