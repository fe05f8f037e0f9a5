import SchemaLedger.Calendar.Moment

/-!
# Moments of a clock

A clock counts the seconds since the beginning of 1970. Counted from the first of March, every
year but the last of a cycle of 400 years begins a fixed number of days after the one before
it, leap days being the last days of their years.
-/

namespace SchemaLedger.Moment

/-- The date that is a number of days behind the first of March of the year 0. -/
def ofMarchDays (days : Int) : Int × Nat × Nat :=
  let cycle := days.fdiv 146097
  let inCycle := (days.fmod 146097).toNat
  let year := (inCycle - inCycle / 1460 + inCycle / 36524 - inCycle / 146096) / 365
  let inYear := inCycle - (365 * year + year / 4 - year / 100)
  let fromMarch := (5 * inYear + 2) / 153
  let day := inYear - (153 * fromMarch + 2) / 5 + 1
  let month := if fromMarch < 10 then fromMarch + 3 else fromMarch - 9
  (cycle * 400 + year + (if month ≤ 2 then 1 else 0), month, day)

/-- The moment that is a number of seconds behind the beginning of 1970. -/
def ofSeconds (seconds : Int) : Moment :=
  let (year, month, day) := ofMarchDays (seconds.fdiv 86400 + 719468)
  let inDay := (seconds.fmod 86400).toNat
  { year, month, day, hour := inDay / 3600, minute := inDay / 60 % 60, second := inDay % 60 }

example : (ofSeconds 0).toText = "1970-01-01T00:00:00" := by decide +kernel

example : (ofSeconds 951827696).toText = "2000-02-29T12:34:56" := by decide +kernel

example : (ofSeconds (-1)).toText = "1969-12-31T23:59:59" := by decide +kernel

end SchemaLedger.Moment
