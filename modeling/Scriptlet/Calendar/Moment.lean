import Scriptlet.Text.Basic
/-!
Moments of the proleptic Gregorian calendar, to the nanosecond.
-/
namespace Scriptlet

structure Moment where
  year : Int
  month : Nat
  day : Nat
  hour : Nat
  minute : Nat
  second : Nat
  nanosecond : Nat
  deriving DecidableEq, Repr

namespace Moment

def isLeap (year : Int) : Bool :=
  year % 4 == 0 && (year % 100 != 0 || year % 400 == 0)

def daysIn (year : Int) (month : Nat) : Nat :=
  match month with
  | 2 => if isLeap year then 29 else 28
  | 4 | 6 | 9 | 11 => 30
  | _ => 31

def isValid (m : Moment) : Bool :=
  1 ≤ m.month && m.month ≤ 12 && 1 ≤ m.day && m.day ≤ daysIn m.year m.month
    && m.hour < 24 && m.minute < 60 && m.second < 60 && m.nanosecond < 1000000000

/-- The year, month and day that lie a number of days after the first of January 1970. Years are
counted from March, so that the leap day is the last of its year. -/
def dateOfDays (days : Int) : Int × Nat × Nat :=
  let fromEpoch := days + 719468
  let era := fromEpoch / 146097
  let dayOfEra := (fromEpoch % 146097).toNat
  let yearOfEra :=
    (dayOfEra - dayOfEra / 1460 + dayOfEra / 36524 - dayOfEra / 146096) / 365
  let dayOfYear := dayOfEra - (365 * yearOfEra + yearOfEra / 4 - yearOfEra / 100)
  let shifted := (5 * dayOfYear + 2) / 153
  let day := dayOfYear - (153 * shifted + 2) / 5 + 1
  let month := if shifted < 10 then shifted + 3 else shifted - 9
  let year := (yearOfEra : Int) + era * 400 + if month ≤ 2 then 1 else 0
  (year, month, day)

def ofSeconds (seconds : Nat) (nanosecond : Nat) : Moment :=
  let (year, month, day) := dateOfDays (seconds / 86400 : Nat)
  let rest := seconds % 86400
  ⟨year, month, day, rest / 3600, rest / 60 % 60, rest % 60, nanosecond⟩

/-- A count with zeros before it, up to a number of digits. -/
def padded (digits count : Nat) : Text :=
  List.replicate (digits - (Text.ofNat count).length) 48 ++ Text.ofNat count

/-- The moment to the millisecond, as log lines tell it. -/
def stamp (m : Moment) : Text :=
  padded 4 m.year.toNat ++ utf8 "-" ++ padded 2 m.month ++ utf8 "-" ++ padded 2 m.day ++ utf8 "T"
    ++ padded 2 m.hour ++ utf8 ":" ++ padded 2 m.minute ++ utf8 ":" ++ padded 2 m.second
    ++ utf8 "." ++ padded 3 (m.nanosecond / 1000000) ++ utf8 "Z"

end Moment

end Scriptlet
