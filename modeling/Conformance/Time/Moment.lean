import Conformance.Number.Decimal

/-!
# Days and moments

Days of the calendar and moments on them, their written forms, and the same moment on
the clock of universal time.
-/

namespace Conformance

open Number

/-- A day. -/
structure Day where
  year : Nat
  month : Nat
  day : Nat
  deriving Repr, DecidableEq

/-- A moment: a day with a time to the millionth of a second, and how far the clock is
ahead of universal time, in seconds, if that is known. -/
structure Moment where
  day : Day
  hour : Nat
  minute : Nat
  second : Nat
  microsecond : Nat
  zone : Option Int
  deriving Repr, DecidableEq

/-- Whether a year has a day more. -/
def isLeapYear (year : Nat) : Bool := year % 4 == 0 && (year % 100 != 0 || year % 400 == 0)

/-- How many days a month has. -/
def daysInMonth (year month : Nat) : Nat :=
  if month = 2 then if isLeapYear year then 29 else 28
  else if [4, 6, 9, 11].contains month then 30
  else 31

/-- The seconds of a whole day. -/
def daySeconds : Nat := 86400

namespace Day

/-- Whether a day exists. -/
def isValid (day : Day) : Bool :=
  1 ≤ day.year && 1 ≤ day.month && day.month ≤ 12 && 1 ≤ day.day &&
    day.day ≤ daysInMonth day.year day.month

/-- The next day. -/
def next (day : Day) : Day :=
  if day.day < daysInMonth day.year day.month then { day with day := day.day + 1 }
  else if day.month < 12 then ⟨day.year, day.month + 1, 1⟩
  else ⟨day.year + 1, 1, 1⟩

/-- The day before. -/
def previous (day : Day) : Day :=
  if 1 < day.day then { day with day := day.day - 1 }
  else if 1 < day.month then ⟨day.year, day.month - 1, daysInMonth day.year (day.month - 1)⟩
  else ⟨day.year - 1, 12, 31⟩

/-- The day that is some days later. -/
def later (days : Nat) (day : Day) : Day := Nat.repeat next days day

/-- A day as it is shown. -/
def text (day : Day) : List Char :=
  padded 4 day.year ++ '-' :: padded 2 day.month ++ '-' :: padded 2 day.day

end Day

/-- A length of time as hours and minutes, and seconds if there are any. -/
def clockText (seconds : Nat) : List Char :=
  padded 2 (seconds / 3600) ++ ':' :: padded 2 (seconds / 60 % 60) ++
    if seconds % 60 = 0 then [] else ':' :: padded 2 (seconds % 60)

namespace Moment

/-- The moment when some time of the clock of universal time has passed since the start
of 1970. -/
def sinceEpoch (seconds microseconds : Nat) : Moment :=
  let passed := seconds % daySeconds
  ⟨Day.later (seconds / daySeconds) ⟨1970, 1, 1⟩, passed / 3600, passed / 60 % 60, passed % 60,
    microseconds, some 0⟩

/-- A moment as it is shown, with a character between day and time. Millionths of a
second are left out if there are none. -/
def textWith (between : Char) (moment : Moment) : List Char :=
  moment.day.text ++ between :: padded 2 moment.hour ++ ':' :: padded 2 moment.minute ++ ':' ::
    padded 2 moment.second ++
    (if moment.microsecond = 0 then [] else '.' :: padded 6 moment.microsecond) ++
    match moment.zone with
    | none => []
    | some ahead => (if ahead < 0 then '-' else '+') :: clockText ahead.natAbs

/-- The same moment on the clock of universal time. A clock in an unknown zone is taken
to show universal time. A zone is less than a day ahead or behind. -/
def universal (moment : Moment) : Moment :=
  let shown : Int := ↑(moment.hour * 3600 + moment.minute * 60 + moment.second)
  let passed := shown - moment.zone.getD 0
  let day :=
    if passed < 0 then moment.day.previous
    else if passed < daySeconds then moment.day
    else moment.day.next
  let seconds := (passed % daySeconds).toNat
  ⟨day, seconds / 3600, seconds / 60 % 60, seconds % 60, moment.microsecond, some 0⟩

/-- The universal time as it is recorded. -/
def stamp (moment : Moment) : String := String.ofList (moment.universal.textWith 'T')

/-- The universal time in digits, as a name that sorts by time. -/
def compact (moment : Moment) : String :=
  let moment := moment.universal
  String.ofList (digits moment.day.year ++ padded 2 moment.day.month ++ padded 2 moment.day.day ++
    'T' :: padded 2 moment.hour ++ padded 2 moment.minute ++ padded 2 moment.second ++
    padded 6 moment.microsecond ++ ['Z'])

end Moment

end Conformance
