/-!
# Days and moments

A settings file can hold a day of the calendar, or a moment: a day and a time of it, which may say how far
its clock is ahead of the clock of Greenwich. The calendar is the one of today, in all years from 1 to
9999. Only days and times that exist have a value here, so reading one can fail.

A moment that knows its clock names an instant, and two of them are the same if their instants are; of two
that do not, all numbers have to agree.
-/

namespace RefCheck

/-! ## Days -/

/-- The year has a day more. -/
def isLeapYear (year : Nat) : Bool := year % 4 == 0 && (year % 100 != 0 || year % 400 == 0)

/-- How many days a month has. -/
def daysIn (year month : Nat) : Nat :=
  if month = 2 then (if isLeapYear year then 29 else 28)
  else if month = 4 ∨ month = 6 ∨ month = 9 ∨ month = 11 then 30
  else 31

/-- A day of the calendar. -/
structure Date where
  /-- The year. -/
  year : Nat
  /-- The month, from one. -/
  month : Nat
  /-- The day of the month, from one. -/
  day : Nat
  /-- There is such a day. -/
  valid : (1 ≤ year ∧ year ≤ 9999) ∧ (1 ≤ month ∧ month ≤ 12) ∧ 1 ≤ day ∧ day ≤ daysIn year month
  deriving DecidableEq, Repr

namespace Date

instance : Inhabited Date := ⟨⟨1, 1, 1, by decide⟩⟩

/-- The day with these numbers. -/
def ofNumbers? (year month day : Nat) : Option Date :=
  if h : (1 ≤ year ∧ year ≤ 9999) ∧ (1 ≤ month ∧ month ≤ 12) ∧ 1 ≤ day ∧ day ≤ daysIn year month then
    some ⟨year, month, day, h⟩
  else none

/-- How many days lie before the first of January. -/
def daysBeforeYear (year : Nat) : Nat :=
  let y := year - 1
  365 * y + y / 4 - y / 100 + y / 400

/-- The place of a day among all days. -/
def number (d : Date) : Nat :=
  (List.range (d.month - 1)).foldl (fun n m => n + daysIn d.year (m + 1)) (daysBeforeYear d.year) +
    d.day

theorem ofNumbers?_self (d : Date) : ofNumbers? d.year d.month d.day = some d := by
  simp [ofNumbers?, d.valid]

end Date

/-! ## Moments -/

/-- A time of a day. -/
structure Clock where
  /-- The hour. -/
  hour : Nat
  /-- The minute. -/
  minute : Nat
  /-- The second. -/
  second : Nat
  /-- The millionths of a second. -/
  micro : Nat
  /-- There is such a time. -/
  valid : hour < 24 ∧ minute < 60 ∧ second < 60 ∧ micro < 1000000
  deriving DecidableEq, Repr

namespace Clock

instance : Inhabited Clock := ⟨⟨0, 0, 0, 0, by decide⟩⟩

/-- The time with these numbers. -/
def ofNumbers? (hour minute second micro : Nat) : Option Clock :=
  if h : hour < 24 ∧ minute < 60 ∧ second < 60 ∧ micro < 1000000 then
    some ⟨hour, minute, second, micro, h⟩
  else none

/-- The seconds since midnight. -/
def seconds (c : Clock) : Nat := (c.hour * 60 + c.minute) * 60 + c.second

end Clock

/-- How many minutes a clock is ahead of that of Greenwich; less than a day, either way. -/
structure Offset where
  /-- The minutes. -/
  minutes : Int
  /-- It is less than a day. -/
  lt_day : minutes.natAbs < 24 * 60
  deriving DecidableEq, Repr

namespace Offset

instance : Inhabited Offset := ⟨⟨0, by decide⟩⟩

/-- An offset of so many minutes. -/
def ofMinutes? (minutes : Int) : Option Offset :=
  if h : minutes.natAbs < 24 * 60 then some ⟨minutes, h⟩ else none

end Offset

/-- A day and a time of it. -/
structure Moment where
  /-- The day. -/
  date : Date
  /-- The time. -/
  clock : Clock
  /-- How far the clock is ahead of that of Greenwich, if that is known. -/
  offset : Option Offset
  deriving DecidableEq, Repr, Inhabited

namespace Moment

/-- The second at which the moment is, counted at Greenwich. -/
def instant (m : Moment) (o : Offset) : Int :=
  (m.date.number * 86400 + m.clock.seconds : Nat) - o.minutes * 60

/-- The two moments are the same. -/
def same (a b : Moment) : Bool :=
  match a.offset, b.offset with
  | some o, some p => a.instant o == b.instant p && a.clock.micro == b.clock.micro
  | none, none => a == b
  | _, _ => false

end Moment

end RefCheck
