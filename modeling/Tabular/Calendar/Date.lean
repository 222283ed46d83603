import Tabular.Number.Decimal

/-! # Dates

Dates of the proleptic Gregorian calendar, as days before or after 1970-01-01. A date is reached
from a year, month and day, from a year and the number of a day in it, or from a week; years run
from -262143 to 262142.
-/
namespace Tabular.Calendar

/-- A day, counted from 1970-01-01. -/
structure Date where
  days : Int
  deriving DecidableEq, Repr, Inhabited

/-- A day of the week, Monday first. -/
abbrev Weekday := Fin 7

/-- Days from the last `start` up to `w`. -/
def Weekday.since (w start : Weekday) : Nat := (w.val + 7 - start.val) % 7

def monday : Weekday := 0
def sunday : Weekday := 6

namespace Date

def minYear : Int := -262143
def maxYear : Int := 262142

def yearInRange (y : Int) : Bool := minYear ≤ y && y ≤ maxYear

def isLeap (y : Int) : Bool := y % 4 == 0 && (y % 100 != 0 || y % 400 == 0)

def yearLength (y : Int) : Nat := if isLeap y then 366 else 365

def monthLength (y : Int) (m : Nat) : Nat :=
  if m = 2 then (if isLeap y then 29 else 28)
  else if m = 4 || m = 6 || m = 9 || m = 11 then 30
  else 31

/-- The first of January. Each year adds its days and leap years one more. -/
def yearStart (y : Int) : Int :=
  let p := y - 1
  365 * (y - 1970) + (p / 4 - p / 100 + p / 400) - 477

def monthStart (y : Int) (m : Nat) : Nat :=
  ((List.range (m - 1)).map fun i => monthLength y (i + 1)).foldr (· + ·) 0

def ofOrdinal? (y : Int) (n : Nat) : Option Date :=
  if yearInRange y && 1 ≤ n && n ≤ yearLength y then some ⟨yearStart y + n - 1⟩ else none

def ofCivil? (y : Int) (m d : Nat) : Option Date :=
  if 1 ≤ m && m ≤ 12 && 1 ≤ d && d ≤ monthLength y m then ofOrdinal? y (monthStart y m + d)
  else none

/-- The year of a date. An average year has 365.2425 days, so the first guess is off by one at
most. -/
def year (t : Date) : Int :=
  let guess := 1970 + t.days * 400 / 146097
  if t.days < yearStart guess then guess - 1
  else if yearStart (guess + 1) ≤ t.days then guess + 1
  else guess

def ordinal (t : Date) : Nat := (t.days - yearStart t.year).toNat + 1

/-- The month and day of the day `n` of a year, looking from month `m` on. -/
def monthDay (y : Int) : Nat → Nat → Nat → Nat × Nat
  | 0, m, n => (m, n)
  | more + 1, m, n =>
    if n ≤ monthLength y m then (m, n) else monthDay y more (m + 1) (n - monthLength y m)

def civil (t : Date) : Nat × Nat := monthDay t.year 11 1 t.ordinal

def month (t : Date) : Nat := t.civil.1
def day (t : Date) : Nat := t.civil.2

/-- The day of the week; 1970-01-01 was a Thursday. -/
def weekday (t : Date) : Weekday :=
  ⟨((t.days + 3) % 7).toNat, by omega⟩

/-- The number of the week of a date, when week one is the first that begins with `start`. -/
def weekFrom (t : Date) (start : Weekday) : Nat :=
  (t.ordinal + 6 - t.weekday.since start) / 7

/-- The Monday of week one of an ISO year: of the week that holds the fourth of January. -/
def isoStart (y : Int) : Int :=
  let fourth : Date := ⟨yearStart y + 3⟩
  fourth.days - fourth.weekday.val

def isoWeeks (y : Int) : Nat := ((isoStart (y + 1) - isoStart y) / 7).toNat

def isoWeek (t : Date) : Int × Nat :=
  let y := t.year
  let y := if t.days < isoStart y then y - 1 else if isoStart (y + 1) ≤ t.days then y + 1 else y
  (y, ((t.days - isoStart y) / 7).toNat + 1)

def inRange (t : Date) : Bool := yearStart minYear ≤ t.days && t.days < yearStart (maxYear + 1)

def ofIsoWeek? (y : Int) (week : Nat) (w : Weekday) : Option Date :=
  if 1 ≤ week && week ≤ isoWeeks y then
    let t : Date := ⟨isoStart y + 7 * (week - 1) + w.val⟩
    if t.inRange then some t else none
  else none

end Date
end Tabular.Calendar
