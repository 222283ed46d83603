import Tabular.Calendar.Date

/-! # Moments

A date with a time of day, its count of microseconds since 1970, and the text of such a count. A
printed year outside four digits carries a sign, and a fraction is written with as many groups of
three digits as it needs.
-/
namespace Tabular.Calendar

/-- A time of day: seconds since midnight and nanoseconds, a second or more of them in a leap
second. -/
structure Time where
  seconds : Nat
  nanos : Nat
  deriving DecidableEq, Repr

/-- Nanoseconds that up to nine digits behind the point of a second stand for. -/
def Time.nanosOf (ds : List Char) : Nat :=
  Number.Decimal.value ds * Number.Decimal.tenTo (9 - ds.length)

structure Moment where
  date : Date
  time : Time
  deriving DecidableEq, Repr

namespace Moment

def seconds (m : Moment) : Int := m.date.days * 86400 + m.time.seconds

def micros (m : Moment) : Int := m.seconds * 1000000 + m.time.nanos / 1000

def ofSeconds? (n : Int) : Option Moment :=
  let t : Date := ⟨n / 86400⟩
  if t.inRange then some ⟨t, ⟨(n % 86400).toNat, 0⟩⟩ else none

end Moment

def yearText (y : Int) : List Char :=
  let ds := Number.Decimal.padded 4 y.natAbs
  if 0 ≤ y && y ≤ 9999 then ds else (if y < 0 then '-' else '+') :: ds

def fractionText (micros : Nat) : List Char :=
  if micros = 0 then []
  else if micros % 1000 = 0 then '.' :: Number.Decimal.padded 3 (micros / 1000)
  else '.' :: Number.Decimal.padded 6 micros

def printMicros? (micros : Int) : Option String :=
  (Moment.ofSeconds? (micros / 1000000)).map fun m =>
    let two := Number.Decimal.padded 2
    let s := m.time.seconds
    String.ofList (
      yearText m.date.year ++ '-' :: two m.date.month ++ '-' :: two m.date.day ++ 'T' ::
        two (s / 3600) ++ ':' :: two (s / 60 % 60) ++ ':' :: two (s % 60) ++
        fractionText (micros % 1000000).toNat)

end Tabular.Calendar
