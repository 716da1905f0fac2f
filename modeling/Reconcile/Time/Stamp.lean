import Reconcile.Number.Decimal
import Reconcile.Text.Blank
import Reconcile.Time.Calendar

/-!
# Time stamps

A time stamp is a date, a time of day, and how far both are ahead of universal time, such as
`2024-02-29T12:30:00.5+01:00`. Reading is lenient about the layout: numbers may be shorter
than their usual width, blanks may stand before most parts, and a space may stand for the
`T`. It is strict about the calendar: `Stamp.ofText?` gives no stamp for a day or a time that
does not exist.
-/

namespace Reconcile.Calendar

/-- A date, a time of day, and how far both are ahead of universal time. -/
structure Stamp where
  date : Date
  hour : Nat
  minute : Nat
  /-- The second of the minute; the sixtieth is a leap second. -/
  second : Nat
  nanosecond : Nat
  /-- The seconds by which the local time is ahead of universal time. -/
  offset : Int
deriving DecidableEq, Repr

/-! ## What exists -/

/-- Whether a year has a 29th of February. -/
def isLeapYear (year : Int) : Bool := year % 4 = 0 && (year % 100 ≠ 0 || year % 400 = 0)

/-- The number of days of a month. -/
def daysInMonth (year : Int) (month : Nat) : Nat :=
  match month with
  | 2 => if isLeapYear year then 29 else 28
  | 4 | 6 | 9 | 11 => 30
  | _ => 31

/-- The first year that a date can lie in. -/
def firstYear : Int := -262143

/-- The last year that a date can lie in. -/
def lastYear : Int := 262142

/-- Whether a date exists. -/
def Date.isValid (d : Date) : Bool :=
  firstYear ≤ d.year && d.year ≤ lastYear && 1 ≤ d.month && d.month ≤ 12 && 1 ≤ d.day &&
    d.day ≤ daysInMonth d.year d.month

namespace Stamp

/-- The time of day in universal time, in seconds; negative on the day before, and past the
end of the day on the day after. A leap second counts as the one before it. -/
def universal (s : Stamp) : Int :=
  ((s.hour * 3600 + s.minute * 60 + min s.second 59 : Nat) : Int) - s.offset

/-- Whether the day before the first date, or the one after the last, is meant. -/
def leavesCalendar (s : Stamp) : Bool :=
  s.date = ⟨firstYear, 1, 1⟩ && s.universal < 0 ||
    s.date = ⟨lastYear, 12, 31⟩ && 86400 ≤ s.universal

/-- Whether a stamp exists. -/
def isValid (s : Stamp) : Bool :=
  s.date.isValid && s.hour < 24 && s.minute < 60 && s.second ≤ 60 && s.offset.natAbs < 86400 &&
    !s.leavesCalendar

end Stamp

/-! ## Reading -/

/-- A reader of a part of a stamp. -/
abbrev StampReader := StateT (List Char) Option

namespace StampReader

/-- Passes blanks. -/
def blanks : StampReader Unit := modify (·.dropWhile Text.isBlank)

/-- The next character, which must be one of a class. -/
def oneOf (class? : Char → Bool) : StampReader Char := fun cs =>
  match cs with
  | c :: rest => if class? c then some (c, rest) else none
  | [] => none

/-- A character behind blanks. -/
def mark (c : Char) : StampReader Unit := do
  blanks
  let _ ← oneOf (· = c)

/-- At least one digit and at most `width` of them. -/
def digits (width : Nat) : StampReader (List Char) := fun cs =>
  let run := (cs.take width).takeWhile Char.isDigit
  if run.isEmpty then none else some (run, cs.drop run.length)

/-- A number of at most `width` digits behind blanks. -/
def number (width : Nat) : StampReader Nat := do
  blanks
  return Number.ofDigits (← digits width)

/-- A year behind blanks. One with a sign may have any number of digits. -/
def year : StampReader Int := do
  blanks
  let cs ← get
  match cs with
  | '-' :: rest => do
    set rest
    return -(Number.ofDigits (← digits rest.length) : Int)
  | '+' :: rest => do
    set rest
    return Number.ofDigits (← digits rest.length)
  | _ => return Number.ofDigits (← digits 4)

/-- A date. -/
def date : StampReader Date := do
  let year ← year
  mark '-'
  let month ← number 2
  mark '-'
  return ⟨year, month, ← number 2⟩

/-- The nanoseconds behind a point; digits after the ninth do not count. -/
def fraction : StampReader Nat := do
  match ← get with
  | '.' :: rest => do
    set rest
    let run ← digits rest.length
    let counted := run.take 9
    return Number.ofDigits (counted ++ List.replicate (9 - counted.length) '0')
  | _ => return 0

/-- Two digits, the first of a class. -/
def pair (class? : Char → Bool) : StampReader Nat := do
  let a ← oneOf class?
  let b ← oneOf Char.isDigit
  return Number.ofDigits [a, b]

/-- The seconds of an offset behind its sign. -/
def offsetTail : StampReader Int := do
  let hours ← pair Char.isDigit
  modify (·.dropWhile fun c => c = ':' || Text.isBlank c)
  let minutes ← pair fun c => '0' ≤ c && c ≤ '5'
  return (hours * 3600 + minutes * 60 : Nat)

/-- How far the local time is ahead of universal time. -/
def offset : StampReader Int := do
  blanks
  let cs ← get
  if (cs.take 3).map Char.toLower = ['u', 't', 'c'] then
    set (cs.drop 3)
    return 0
  let sign ← oneOf fun _ => true
  if sign = 'Z' ∨ sign = 'z' then return 0
  else if sign = '+' then offsetTail
  else if sign = '-' ∨ sign = '−' then return -(← offsetTail)
  else failure

/-- A stamp up to the end of the text, of which only blanks may be left. -/
def stamp : StampReader Stamp := do
  let date ← date
  let _ ← oneOf fun c => c = 'T' || c = 't' || c = ' '
  let hour ← number 2
  mark ':'
  let minute ← number 2
  mark ':'
  let second ← number 2
  let nanosecond ← fraction
  let offset ← offset
  blanks
  if (← get).isEmpty then return ⟨date, hour, minute, second, nanosecond, offset⟩ else failure

end StampReader

/-- The stamp that a text shows, if it exists. -/
def Stamp.ofText? (s : String) : Option Stamp :=
  match StampReader.stamp.run s.toList with
  | some (stamp, _) => if stamp.isValid then some stamp else none
  | none => none

end Reconcile.Calendar
