/-!
# Calendar times

Times of day in the Gregorian calendar, counted from the beginning of 1970 in universal time.
A fraction of a second is cut towards the past, also before 1970.
-/

namespace Reconcile.Calendar

/-- A day of the calendar. -/
structure Date where
  year : Int
  month : Nat
  day : Nat
deriving DecidableEq, Repr

/-- The date of a day counted from 1970-01-01. Years are counted from March, so that the leap
day is the last of its year, and grouped into eras of 400 years. -/
def Date.ofDays (days : Int) : Date :=
  let shifted := days + 719468
  let era := Int.fdiv shifted 146097
  let dayOfEra := (Int.fmod shifted 146097).toNat
  let yearOfEra := (dayOfEra - dayOfEra / 1460 + dayOfEra / 36524 - dayOfEra / 146096) / 365
  let dayOfYear := dayOfEra - (365 * yearOfEra + yearOfEra / 4 - yearOfEra / 100)
  let shiftedMonth := (5 * dayOfYear + 2) / 153
  let month := if shiftedMonth < 10 then shiftedMonth + 3 else shiftedMonth - 9
  let year := era * 400 + yearOfEra + if month ≤ 2 then 1 else 0
  ⟨year, month, dayOfYear - (153 * shiftedMonth + 2) / 5 + 1⟩

/-- A number with at least `width` digits. -/
def padded (width n : Nat) : String :=
  let digits := Nat.toDigits 10 n
  String.ofList (List.replicate (width - digits.length) '0' ++ digits)

/-- The year with four digits, signed when it needs more or lies before the year zero. -/
def yearText (year : Int) : String :=
  if year < 0 then "-" ++ padded 4 year.natAbs
  else if 9999 < year then "+" ++ padded 4 year.natAbs
  else padded 4 year.natAbs

/-- A time in milliseconds since 1970 as date and time of day to the second. -/
def timestamp (millis : Int) : String :=
  let seconds := Int.fdiv millis 1000
  let date := Date.ofDays (Int.fdiv seconds 86400)
  let time := (Int.fmod seconds 86400).toNat
  yearText date.year ++ "-" ++ padded 2 date.month ++ "-" ++ padded 2 date.day ++ "T" ++
    padded 2 (time / 3600) ++ ":" ++ padded 2 (time / 60 % 60) ++ ":" ++ padded 2 (time % 60) ++ "Z"

end Reconcile.Calendar
