/-!
# Timestamps

Moments of time and their text, such as `2024-02-29T12:00:00.500+00:00`.

A moment is a number of seconds from the start of 1970 and a number of nanoseconds.
During a leap second the nanoseconds go on past a thousand million, and the second
is then written as 60. The calendar is the Gregorian one in both directions, with a
year zero. The fraction of a second has no digits, three, six or nine, the fewest
that are exact. A year outside 0 to 9999 has a sign.

## Main definitions

* `Date`: A day of the calendar.
* `Date.ofDay`: The day with a given distance from the first day of 1970.
* `Timestamp`: A moment.
* `Timestamp.text`: The text of a moment.
-/

namespace ShardConsole

/-- A day of the calendar; months and days are counted from one. -/
structure Date where
  year : Int
  month : Nat
  day : Nat
deriving DecidableEq

namespace Date

/-- The number of days in 400 years, after which the calendar repeats. -/
def daysPerCycle : Nat := 146097

/-- The days from the first of March of a year that is a multiple of 400 to the first
    day of 1970, less whole cycles. -/
def marchOffset : Int := 719468

/-- The day with a given distance from the first day of 1970. Years are counted from
    March, so that the leap day is the last one, and the months from March on have
    153 days in every five. -/
def ofDay (n : Int) : Date :=
  let shifted := n + marchOffset
  let cycle := shifted.fdiv daysPerCycle
  let day := (shifted.fmod daysPerCycle).toNat
  let year := (day - day / 1460 + day / 36524 - day / 146096) / 365
  let dayOfYear := day - (365 * year + year / 4 - year / 100)
  let month := (5 * dayOfYear + 2) / 153
  let dayOfMonth := dayOfYear - (153 * month + 2) / 5 + 1
  if month < 10 then ⟨400 * cycle + year, month + 3, dayOfMonth⟩
  else ⟨400 * cycle + year + 1, month - 9, dayOfMonth⟩

end Date

/-- A moment: seconds from the start of 1970 and nanoseconds. -/
structure Timestamp where
  seconds : Int
  nanos : Nat
deriving DecidableEq

namespace Timestamp

/-- The moment that is a number of milliseconds away from the start of 1970. -/
def ofMillis (ms : Int) : Timestamp :=
  ⟨ms.fdiv 1000, (ms.fmod 1000).toNat * 1000000⟩

/-- A number with zeros in front of it up to a least width. -/
def padded (width n : Nat) : String :=
  let ds := Nat.toDigits 10 n
  String.ofList (List.replicate (width - ds.length) '0' ++ ds)

/-- A year: four digits at least, with a sign outside 0 to 9999. -/
def yearText (year : Int) : String :=
  let sign := if year < 0 then "-" else if 9999 < year then "+" else ""
  sign ++ padded 4 year.natAbs

/-- The fraction of a second after the point, and the point itself. -/
def fractionText (nanos : Nat) : String :=
  if nanos = 0 then ""
  else if nanos % 1000000 = 0 then "." ++ padded 3 (nanos / 1000000)
  else if nanos % 1000 = 0 then "." ++ padded 6 (nanos / 1000)
  else "." ++ padded 9 nanos

/-- The text of a moment, with the given text for the time zone, which is always the
    universal one. -/
def text (t : Timestamp) (zone : String) : String :=
  let date := Date.ofDay (t.seconds.fdiv 86400)
  let clock := (t.seconds.fmod 86400).toNat
  yearText date.year ++ "-" ++ padded 2 date.month ++ "-" ++ padded 2 date.day ++ "T" ++
    padded 2 (clock / 3600) ++ ":" ++ padded 2 (clock / 60 % 60) ++ ":" ++
    padded 2 (clock % 60 + t.nanos / 1000000000) ++
    fractionText (t.nanos % 1000000000) ++ zone

end Timestamp

end ShardConsole
