import RefCheck.Moment.Basic
import RefCheck.Text.Digit

/-!
# Reading days and moments

A day is written as a year of four digits, a month and a day. A letter `T` or blanks lead to a time: an
hour, a minute and a second, which may have places after a point, of which six count. At the end may stand
a `Z`, for the clock of Greenwich, or an offset in hours and minutes.

What is written in this way need not exist: the digits are read first, and then the day, the time and the
offset that they mean.
-/

namespace RefCheck

namespace Moment

/-- A moment as it is written, in digits. -/
structure Written where
  /-- The year. -/
  year : List Char
  /-- The month. -/
  month : List Char
  /-- The day. -/
  day : List Char
  /-- The hour, the minute, the second and its places; a day alone has none. -/
  clock : Option (List Char × List Char × List Char × List Char)
  /-- The sign of the offset, its hours and its minutes. -/
  offset : Option (Bool × List Char × List Char)
  deriving Repr, Inhabited

/-- Between `least` and `most` digits at the start of a text, as many as there are, and what follows. -/
def takeDigits? (least most : Nat) (cs : List Char) : Option (List Char × List Char) :=
  let ds := (cs.take most).takeWhile Char.isDigit
  if ds.length < least then none else some (ds, cs.drop ds.length)

/-- What follows a character that has to come. -/
def expect? (c : Char) : List Char → Option (List Char)
  | d :: cs => if d = c then some cs else none
  | [] => none

/-- The character separates words on a line. -/
def isGap (c : Char) : Bool := c == ' ' || c == '\t'

/-- Reads the offset at the end of a text. -/
def readOffset? (cs : List Char) : Option (Option (Bool × List Char × List Char)) :=
  match cs.dropWhile isGap with
  | [] => if cs.isEmpty then some none else none
  | ['Z'] => some (some (false, [], []))
  | sign :: rest => do
    if sign != '+' && sign != '-' then none
    else
      let (hours, rest) ← takeDigits? 1 2 rest
      match rest with
      | [] => return some (sign == '-', hours, [])
      | ':' :: rest =>
        let (minutes, rest) ← takeDigits? 2 2 rest
        if rest.isEmpty then return some (sign == '-', hours, minutes) else none
      | _ => none

/-- What follows the letter or the blanks between a day and a time. -/
def dropSeparator? : List Char → Option (List Char)
  | c :: cs =>
    if c = 'T' || c = 't' then some cs
    else if isGap c then some (cs.dropWhile isGap)
    else none
  | [] => none

/-- Reads the digits of a day or a moment. -/
def Written.ofText? (cs : List Char) : Option Written := do
  let (year, cs) ← takeDigits? 4 4 cs
  let (month, cs) ← takeDigits? 1 2 (← expect? '-' cs)
  let (day, cs) ← takeDigits? 1 2 (← expect? '-' cs)
  if cs.isEmpty then return ⟨year, month, day, none, none⟩
  else
    let (hour, cs) ← takeDigits? 1 2 (← dropSeparator? cs)
    let (minute, cs) ← takeDigits? 2 2 (← expect? ':' cs)
    let (second, cs) ← takeDigits? 2 2 (← expect? ':' cs)
    let (places, cs) :=
      match cs with
      | '.' :: cs => (cs.takeWhile Char.isDigit, cs.dropWhile Char.isDigit)
      | cs => ([], cs)
    return ⟨year, month, day, some (hour, minute, second, places), ← readOffset? cs⟩

/-- The number that digits write. -/
def ofDigits (ds : List Char) : Nat := ds.foldl (fun n d => 10 * n + (d.toNat - 0x30)) 0

/-- The millionths that the places of a second write; further places are cut off. -/
def microOf (places : List Char) : Nat :=
  let kept := places.take 6
  ofDigits kept * Nat.pow 10 (6 - kept.length)

/-- Month and day have two digits each. -/
def Written.isPadded (w : Written) : Bool := w.month.length == 2 && w.day.length == 2

/-- The day that is written, if there is such a day. -/
def Written.date? (w : Written) : Option Date :=
  Date.ofNumbers? (ofDigits w.year) (ofDigits w.month) (ofDigits w.day)

/-- The offset that is written, if there is such an offset. -/
def Written.offset? (w : Written) : Option (Option Offset) :=
  match w.offset with
  | none => some none
  | some (negative, hours, minutes) =>
    (Offset.ofMinutes? (Text.withSign negative (ofDigits hours * 60 + ofDigits minutes))).map some

/-- The time that is written, if there is such a time; a day alone has the time of its start. -/
def Written.clock? (w : Written) : Option Clock :=
  match w.clock with
  | none => some default
  | some (hour, minute, second, places) =>
    Clock.ofNumbers? (ofDigits hour) (ofDigits minute) (ofDigits second) (microOf places)

/-- The moment that is written, if there is such a moment. -/
def Written.moment? (w : Written) : Option Moment := do
  return ⟨← w.date?, ← w.clock?, ← w.offset?⟩

end Moment

end RefCheck
