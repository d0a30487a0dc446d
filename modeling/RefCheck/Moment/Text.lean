import RefCheck.Moment.Basic

/-!
# Days and moments as text

A day is written as year, month and day with hyphens between them, and a moment has its time after a
space, with millionths of a second only if there are any, and its offset. Inside another value both are
written as the numbers that they are made of.
-/

namespace RefCheck

/-- A number with zeros before it, up to so many digits. -/
def zeroPadded (width n : Nat) : String :=
  let digits := toString n
  "".pushn '0' (width - digits.length) ++ digits

namespace Date

/-- The day as text. -/
def text (d : Date) : String :=
  zeroPadded 4 d.year ++ "-" ++ zeroPadded 2 d.month ++ "-" ++ zeroPadded 2 d.day

/-- The numbers of a day. -/
def numbers (d : Date) : List Nat := [d.year, d.month, d.day]

/-- The day inside another value. -/
def quoted (d : Date) : String :=
  "datetime.date(" ++ ", ".intercalate (d.numbers.map toString) ++ ")"

end Date

namespace Clock

/-- The time as text; millionths only if there are any. -/
def text (c : Clock) : String :=
  ":".intercalate ([c.hour, c.minute, c.second].map (zeroPadded 2)) ++
    if c.micro = 0 then "" else "." ++ zeroPadded 6 c.micro

/-- The numbers of a time: hour and minute, and then all up to the last that is not zero. -/
def numbers (c : Clock) : List Nat :=
  [c.hour, c.minute] ++
    if c.micro ≠ 0 then [c.second, c.micro] else if c.second ≠ 0 then [c.second] else []

end Clock

namespace Offset

/-- The offset as text. -/
def text (o : Offset) : String :=
  let n := o.minutes.natAbs
  (if o.minutes < 0 then "-" else "+") ++ zeroPadded 2 (n / 60) ++ ":" ++ zeroPadded 2 (n % 60)

/-- The offset inside another value. A negative one is a day back and some seconds on. -/
def quoted (o : Offset) : String :=
  if o.minutes = 0 then "datetime.timezone.utc"
  else
    let seconds := toString ((o.minutes % (24 * 60)) * 60)
    "datetime.timezone(datetime.timedelta(" ++ (if o.minutes < 0 then "days=-1, " else "") ++
      "seconds=" ++ seconds ++ "))"

end Offset

namespace Moment

/-- The moment as text. -/
def text (m : Moment) : String :=
  m.date.text ++ " " ++ m.clock.text ++ (m.offset.map Offset.text).getD ""

/-- The moment inside another value. -/
def quoted (m : Moment) : String :=
  "datetime.datetime(" ++ ", ".intercalate ((m.date.numbers ++ m.clock.numbers).map toString) ++
    (match m.offset with
      | some o => ", tzinfo=" ++ o.quoted
      | none => "") ++ ")"

end Moment

end RefCheck
