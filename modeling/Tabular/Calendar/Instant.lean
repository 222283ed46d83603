import Tabular.Calendar.Moment

/-! # Instants

A point in universal time, to the nanosecond, and its text as the internet standard writes it.
-/
namespace Tabular.Calendar

structure Instant where
  seconds : Int
  nanos : Nat
  deriving DecidableEq, Repr, Inhabited

namespace Instant

def fraction (nanos : Nat) : List Char :=
  if nanos = 0 then []
  else if nanos % 1000000 = 0 then '.' :: Number.Decimal.padded 3 (nanos / 1000000)
  else if nanos % 1000 = 0 then '.' :: Number.Decimal.padded 6 (nanos / 1000)
  else '.' :: Number.Decimal.padded 9 nanos

/-- Date, time and `zone`. A second that has begun its leap second is written as sixty. -/
def text (zone : String) (t : Instant) : String :=
  let date : Date := ⟨t.seconds / 86400⟩
  let s := (t.seconds % 86400).toNat
  let leap := t.nanos / 1000000000
  let two := Number.Decimal.padded 2
  String.ofList (
    yearText date.year ++ '-' :: two date.month ++ '-' :: two date.day ++ 'T' :: two (s / 3600) ++
      ':' :: two (s / 60 % 60) ++ ':' :: two (s % 60 + leap) ++
      fraction (t.nanos % 1000000000)) ++ zone

def millisTo (t u : Instant) : Int :=
  let nanos : Int := (u.seconds - t.seconds) * 1000000000 + ((u.nanos : Int) - t.nanos)
  nanos.tdiv 1000000

end Instant
end Tabular.Calendar
