import Tabular.Calendar.Moment
import Tabular.Text.Blank

/-! # Dates and times without a pattern

The one form in which a time may be written where no pattern is given: a date in digits, and
perhaps a time of day behind a `T` or a blank, with or without colons, a fraction and an offset.
-/
namespace Tabular.Calendar.Plain

def digits? (n : Nat) (cs : List Char) : Option (Nat × List Char) :=
  let ds := cs.take n
  if ds.length = n && ds.all Number.Decimal.isDigit then
    some (Number.Decimal.value ds, cs.drop n)
  else none

def mark? (c : Char) : List Char → Option (List Char)
  | x :: r => if x == c then some r else none
  | [] => none

def date? (cs : List Char) : Option (Date × List Char) := do
  let (y, cs) ← digits? 4 cs
  let (m, cs) ← digits? 2 (← mark? '-' cs)
  let (d, cs) ← digits? 2 (← mark? '-' cs)
  some (← Date.ofCivil? y m d, cs)

def time? (hour minute second nanos : Nat) : Option Time :=
  let (second, nanos) := if second = 60 then (59, nanos + 1000000000) else (second, nanos)
  if hour < 24 && minute < 60 && second < 60 then
    some ⟨hour * 3600 + minute * 60 + second, nanos⟩
  else none

/-- A fraction, if a point follows: its first nine digits count. -/
def fraction? (cs : List Char) : Option (Nat × List Char) :=
  match cs with
  | '.' :: r =>
    let ds := r.takeWhile Number.Decimal.isDigit
    if ds.isEmpty then none
    else some (Time.nanosOf (ds.take 9), r.drop ds.length)
  | _ => some (0, cs)

def colonTime? (cs : List Char) : Option (Time × List Char) := do
  let (h, cs) ← digits? 2 cs
  let (m, cs) ← digits? 2 (← mark? ':' cs)
  let (s, cs) ← digits? 2 (← mark? ':' cs)
  let (n, cs) ← fraction? cs
  some (← time? h m s n, cs)

/-- A time of day in six digits, with no digit among the two characters behind them. -/
def denseTime? (cs : List Char) : Option (Time × List Char) := do
  let (h, cs) ← digits? 2 cs
  let (m, cs) ← digits? 2 cs
  let (s, cs) ← digits? 2 cs
  if (cs.take 2).any Number.Decimal.isDigit then none
  else some (← time? h m s 0, cs)

/-- An offset in seconds: a sign and hours, and minutes with or without a colon. -/
def offset? (cs : List Char) : Option Int := do
  let (sign, cs) ← match cs with
    | '+' :: r => some ((1 : Int), r)
    | '-' :: r => some (-1, r)
    | _ => none
  let (h, cs) ← digits? 2 cs
  let (m, cs) ← match cs with
    | [] => some (0, [])
    | ':' :: r => digits? 2 r
    | r => digits? 2 r
  if cs.isEmpty && h * 3600 + m * 60 < 86400 then some (sign * (h * 3600 + m * 60 : Nat)) else none

def micros? (text : String) : Option Int := do
  let (date, cs) ← date? text.toList
  match cs with
  | [] => some (Moment.micros ⟨date, ⟨0, 0⟩⟩)
  | c :: cs =>
    if c != 'T' && c != 't' && c != ' ' then none
    let (time, cs) ← (colonTime? cs).or (denseTime? cs)
    let offset ← match cs with
      | [] | ['Z'] | ['z'] => some 0
      | _ => offset? (cs.dropWhile Text.isBlank)
    some (Moment.micros ⟨date, time⟩ - offset * 1000000)

end Tabular.Calendar.Plain
