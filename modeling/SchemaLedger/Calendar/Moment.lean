import SchemaLedger.Text.Integer

/-!
# Moments

A moment is a date of the Gregorian calendar, which is taken to hold for all years, and a
time of day to the nanosecond. A minute may have a sixtieth second, the leap second.
Moments have no time zone.
-/

namespace SchemaLedger

/-- A date and a time of day. -/
structure Moment where
  year : Int
  month : Nat
  day : Nat
  hour : Nat
  minute : Nat
  second : Nat
  nanosecond : Nat := 0
  deriving DecidableEq

namespace Moment

/-- Years with a 29 February. -/
def isLeapYear (year : Int) : Bool :=
  year % 4 = 0 && (year % 100 ≠ 0 || year % 400 = 0)

/-- The number of days in a month. -/
def daysIn (year : Int) (month : Nat) : Nat :=
  if month = 2 then (if isLeapYear year then 29 else 28)
  else if month = 4 || month = 6 || month = 9 || month = 11 then 30
  else 31

/-- The first year of the calendar. -/
def firstYear : Int := -262143

/-- The last year of the calendar. -/
def lastYear : Int := 262142

/-- The date is one of the calendar. -/
def isDate (m : Moment) : Bool :=
  firstYear ≤ m.year && m.year ≤ lastYear && 1 ≤ m.month && m.month ≤ 12 && 1 ≤ m.day &&
    m.day ≤ daysIn m.year m.month

/-- A year of at least four digits; one that has more, or is negative, carries a sign. -/
def yearText (year : Int) : String :=
  if 0 ≤ year && year ≤ 9999 then Text.zeroPadded 4 year.toNat
  else (if year < 0 then "-" else "+") ++ Text.zeroPadded 4 year.natAbs

/-- The parts of the date. -/
def dateText (m : Moment) : String :=
  yearText m.year ++ "-" ++ Text.zeroPadded 2 m.month ++ "-" ++ Text.zeroPadded 2 m.day

/-- The parts of the time of day down to the second. -/
def clockText (m : Moment) : String :=
  Text.zeroPadded 2 m.hour ++ ":" ++ Text.zeroPadded 2 m.minute ++ ":" ++
    Text.zeroPadded 2 m.second

/-- A fraction of a second in three, six or nine digits, as many as it takes; none at all
for a whole second. -/
def fractionText (nanosecond : Nat) : String :=
  if nanosecond = 0 then ""
  else if nanosecond % 1000000 = 0 then "." ++ Text.zeroPadded 3 (nanosecond / 1000000)
  else if nanosecond % 1000 = 0 then "." ++ Text.zeroPadded 6 (nanosecond / 1000)
  else "." ++ Text.zeroPadded 9 nanosecond

/-- The moment in full. -/
def toText (m : Moment) : String :=
  m.dateText ++ "T" ++ m.clockText ++ fractionText m.nanosecond

/-- The moment to the second, for people. -/
def toTableText (m : Moment) : String :=
  m.dateText ++ " " ++ m.clockText

/-- The moment to the second as digits only. -/
def stamp (m : Moment) : String :=
  yearText m.year ++ Text.zeroPadded 2 m.month ++ Text.zeroPadded 2 m.day ++
    Text.zeroPadded 2 m.hour ++ Text.zeroPadded 2 m.minute ++ Text.zeroPadded 2 m.second

end Moment

end SchemaLedger
