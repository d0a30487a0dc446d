import RefCheck.Text.Quoted

/-!
# Bytes

Bytes stand in a text as characters of six bits each, four of them for three bytes. Characters outside the
alphabet are passed over. Equals signs fill up the last four characters, and what follows them does not
count; without them there must be no character too few.

A message shows bytes between quotation marks after the letter `b`, each byte that is a printable
character of ASCII by that character.
-/

namespace RefCheck.Bytes

/-! ## Reading -/

/-- The six bits of a character of the alphabet. -/
def sixBits? (c : Char) : Option Nat :=
  if 'A' ≤ c && c ≤ 'Z' then some (c.toNat - 0x41)
  else if 'a' ≤ c && c ≤ 'z' then some (c.toNat - 0x61 + 26)
  else if c.isDigit then some (c.toNat - 0x30 + 52)
  else if c = '+' then some 62
  else if c = '/' then some 63
  else none

/-- Reads bytes from the middle of a text: `place` of four characters are read, they left the bits `left`
over, and `fill` equals signs came since. -/
def readFrom (place left fill : Nat) : List Char → Option (List UInt8)
  | [] => if place = 0 then some [] else none
  | c :: cs =>
    if c = '=' then
      if place < 2 then readFrom place left fill cs
      else if 4 ≤ place + fill + 1 then some []
      else readFrom place left (fill + 1) cs
    else
      match sixBits? c with
      | none => readFrom place left fill cs
      | some v =>
        if place = 0 then readFrom 1 v 0 cs
        else if place = 1 then
          (readFrom 2 (v % 16) 0 cs).map ((left * 4 + v / 16).toUInt8 :: ·)
        else if place = 2 then
          (readFrom 3 (v % 4) 0 cs).map ((left * 16 + v / 4).toUInt8 :: ·)
        else (readFrom 0 0 0 cs).map ((left * 64 + v).toUInt8 :: ·)

/-- The bytes that a text of ASCII writes. -/
def ofText? (cs : List Char) : Option (List UInt8) :=
  if cs.all fun c => c.toNat < 0x80 then readFrom 0 0 0 cs else none

/-! ## Showing -/

/-- One byte between quotation marks. -/
def quotedByte (quote : Char) (b : UInt8) : List Char :=
  let c := Char.ofNat b.toNat
  if b.toNat < 0x7F then Text.quotedChar quote c else Text.numericEscape c

/-- Bytes between quotation marks. -/
def quoted (bytes : List UInt8) : String :=
  let quote := Text.quoteFor (bytes.map fun b => Char.ofNat b.toNat)
  String.ofList ('b' :: quote :: bytes.flatMap (quotedByte quote) ++ [quote])

end RefCheck.Bytes
