/-! # Time stamps of reports

A time stamp is a moment in universal time, as a date and a time of day.

* `Date`, `Date.ofDays`: the date of a number of days since the start of 1970.
* `Timestamp.text`: the text of a moment.
-/

namespace ComponentWiring.Report
set_option autoImplicit false

/-- A day of the calendar; months and days count from 1. -/
structure Date where
  year : Nat
  month : Nat
  day : Nat
  deriving DecidableEq

/-- The date of a number of days since the start of 1970. Years are counted from March, so that the
day that is not in every year is the last one, and in spans of 400 years, which all have the same
number of days. -/
def Date.ofDays (days : Nat) : Date :=
  let shifted := days + 719468
  let inSpan := shifted % 146097
  let year := (inSpan - inSpan / 1460 + inSpan / 36524 - inSpan / 146096) / 365
  let inYear := inSpan - (365 * year + year / 4 - year / 100)
  let month := (5 * inYear + 2) / 153
  { year := 400 * (shifted / 146097) + year + month / 10
    month := if month < 10 then month + 3 else month - 9
    day := inYear - (153 * month + 2) / 5 + 1 }

namespace Timestamp

/-- A number with zeros in front of it up to a width. -/
def padded (width n : Nat) : String :=
  let digits := toString n
  "".pushn '0' (width - digits.length) ++ digits

def dateText (date : Date) : String :=
  s!"{padded 4 date.year}-{padded 2 date.month}-{padded 2 date.day}"

def timeText (seconds : Nat) : String :=
  s!"{padded 2 (seconds / 3600)}:{padded 2 (seconds / 60 % 60)}:{padded 2 (seconds % 60)}"

/-- The text of a fraction of a second: none, or as many groups of three digits as it takes. -/
def fractionText (nanoseconds : Nat) : String :=
  if nanoseconds = 0 then ""
  else if nanoseconds % 1000000 = 0 then "." ++ padded 3 (nanoseconds / 1000000)
  else if nanoseconds % 1000 = 0 then "." ++ padded 6 (nanoseconds / 1000)
  else "." ++ padded 9 nanoseconds

/-- The text of a moment, given by the time since the start of 1970. -/
def text (seconds nanoseconds : Nat) : String :=
  dateText (Date.ofDays (seconds / 86400)) ++ "T" ++ timeText (seconds % 86400) ++
    fractionText nanoseconds ++ "+00:00"

end Timestamp

end ComponentWiring.Report
