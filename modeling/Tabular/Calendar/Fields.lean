import Tabular.Calendar.Moment

/-! # Fields of a timestamp

What a text says about a moment, field by field, and what moment that is. A field may be said
more than once but never in two ways. The fields given have to determine a date, and a time if
one is asked for, and all the others must agree with it.
-/
namespace Tabular.Calendar

/-- Why fields determine nothing: too few were given, or they contradict each other or the
calendar. -/
inductive Lack where
  | few
  | wrong
  deriving DecidableEq, Repr

/-- The fields given so far. Hours are split into half days and hours of a half day. -/
structure Fields where
  year : Option Int := none
  century : Option Int := none
  yearOfCentury : Option Int := none
  isoYear : Option Int := none
  isoYearOfCentury : Option Int := none
  month : Option Nat := none
  weekFromSunday : Option Nat := none
  weekFromMonday : Option Nat := none
  isoWeek : Option Nat := none
  weekday : Option Weekday := none
  ordinal : Option Nat := none
  day : Option Nat := none
  halfDay : Option Nat := none
  hourOfHalf : Option Nat := none
  minute : Option Nat := none
  second : Option Nat := none
  nanosecond : Option Nat := none
  timestamp : Option Int := none
  offset : Option Int := none
  deriving Repr, Inhabited

namespace Fields

/-- Set a field, or find that it was set in another way. -/
def agree {α : Type} [DecidableEq α] (old : Option α) (new : α) : Option (Option α) :=
  match old with
  | none => some (some new)
  | some a => if a = new then some (some a) else none

def allows {α : Type} [DecidableEq α] (field : Option α) (a : α) : Bool :=
  match field with
  | none => true
  | some b => b = a

def yearLimit : Int := 2147483647

def setYear (f : Fields) (v : Int) : Option Fields :=
  if -yearLimit - 1 ≤ v && v ≤ yearLimit then
    (agree f.year v).map fun x => { f with year := x }
  else none

def setCentury (f : Fields) (v : Int) : Option Fields :=
  if 0 ≤ v && v ≤ yearLimit then (agree f.century v).map fun x => { f with century := x }
  else none

def setYearOfCentury (f : Fields) (v : Int) : Option Fields :=
  if 0 ≤ v && v ≤ 99 then (agree f.yearOfCentury v).map fun x => { f with yearOfCentury := x }
  else none

def setIsoYear (f : Fields) (v : Int) : Option Fields :=
  if -yearLimit - 1 ≤ v && v ≤ yearLimit then
    (agree f.isoYear v).map fun x => { f with isoYear := x }
  else none

def setIsoYearOfCentury (f : Fields) (v : Int) : Option Fields :=
  if 0 ≤ v && v ≤ 99 then
    (agree f.isoYearOfCentury v).map fun x => { f with isoYearOfCentury := x }
  else none

def within? (low high : Nat) (v : Int) : Option Nat :=
  if (low : Int) ≤ v && v ≤ high then some v.toNat else none

def setMonth (f : Fields) (v : Int) : Option Fields := do
  let n ← within? 1 12 v
  (agree f.month n).map fun x => { f with month := x }

def setDay (f : Fields) (v : Int) : Option Fields := do
  let n ← within? 1 31 v
  (agree f.day n).map fun x => { f with day := x }

def setOrdinal (f : Fields) (v : Int) : Option Fields := do
  let n ← within? 1 366 v
  (agree f.ordinal n).map fun x => { f with ordinal := x }

def setWeekFromSunday (f : Fields) (v : Int) : Option Fields := do
  let n ← within? 0 53 v
  (agree f.weekFromSunday n).map fun x => { f with weekFromSunday := x }

def setWeekFromMonday (f : Fields) (v : Int) : Option Fields := do
  let n ← within? 0 53 v
  (agree f.weekFromMonday n).map fun x => { f with weekFromMonday := x }

def setIsoWeek (f : Fields) (v : Int) : Option Fields := do
  let n ← within? 1 53 v
  (agree f.isoWeek n).map fun x => { f with isoWeek := x }

def setWeekday (f : Fields) (w : Weekday) : Option Fields :=
  (agree f.weekday w).map fun x => { f with weekday := x }

def setWeekdayFromSunday (f : Fields) (v : Int) : Option Fields := do
  let n ← within? 0 6 v
  f.setWeekday ⟨(n + 6) % 7, by omega⟩

def setWeekdayFromMonday (f : Fields) (v : Int) : Option Fields := do
  let n ← within? 1 7 v
  f.setWeekday ⟨(n + 6) % 7, by omega⟩

def setHalfDay (f : Fields) (n : Nat) : Option Fields :=
  (agree f.halfDay n).map fun x => { f with halfDay := x }

def setHourOfHalf (f : Fields) (n : Nat) : Option Fields :=
  (agree f.hourOfHalf n).map fun x => { f with hourOfHalf := x }

def setHour (f : Fields) (v : Int) : Option Fields := do
  let n ← within? 0 23 v
  (← f.setHalfDay (n / 12)).setHourOfHalf (n % 12)

def setHour12 (f : Fields) (v : Int) : Option Fields := do
  let n ← within? 1 12 v
  f.setHourOfHalf (n % 12)

def setMinute (f : Fields) (v : Int) : Option Fields := do
  let n ← within? 0 59 v
  (agree f.minute n).map fun x => { f with minute := x }

def setSecond (f : Fields) (v : Int) : Option Fields := do
  let n ← within? 0 60 v
  (agree f.second n).map fun x => { f with second := x }

def setNanosecond (f : Fields) (v : Int) : Option Fields := do
  let n ← within? 0 999999999 v
  (agree f.nanosecond n).map fun x => { f with nanosecond := x }

def setTimestamp (f : Fields) (v : Int) : Option Fields :=
  (agree f.timestamp v).map fun x => { f with timestamp := x }

def setOffset (f : Fields) (v : Int) : Option Fields :=
  (agree f.offset v).map fun x => { f with offset := x }

/-! ## Resolving -/

/-- A year from a full year, a century and a year of a century. A year of a century alone lies
between 1970 and 2069. -/
def resolveYear (year century ofCentury : Option Int) : Except Lack (Option Int) :=
  match year, century, ofCentury with
  | y, none, none => .ok y
  | some y, c, r =>
    if y < 0 then .error .wrong
    else if allows c (y / 100) && allows r (y % 100) then .ok (some y)
    else .error .wrong
  | none, some c, some r =>
    if c * 100 + r ≤ yearLimit then .ok (some (c * 100 + r)) else .error .wrong
  | none, none, some r => .ok (some (r + if r < 70 then 2000 else 1900))
  | none, some _, none => .error .few

def allowsParts (century ofCentury : Option Int) (y : Int) : Bool :=
  if 0 ≤ y then allows century (y / 100) && allows ofCentury (y % 100)
  else century.isNone && ofCentury.isNone

def allowsCivil (f : Fields) (t : Date) : Bool :=
  allows f.year t.year && allowsParts f.century f.yearOfCentury t.year &&
    allows f.month t.month && allows f.day t.day

def allowsIso (f : Fields) (t : Date) : Bool :=
  let (y, w) := t.isoWeek
  allows f.isoYear y && allowsParts none f.isoYearOfCentury y && allows f.isoWeek w &&
    allows f.weekday t.weekday

def allowsOrdinal (f : Fields) (t : Date) : Bool :=
  allows f.ordinal t.ordinal && allows f.weekFromSunday (t.weekFrom sunday) &&
    allows f.weekFromMonday (t.weekFrom monday)

def weekDate (y : Int) (week : Nat) (w start : Weekday) : Except Lack Date :=
  match Date.ofOrdinal? y 1 with
  | none => .error .wrong
  | some first =>
    let n : Int := 1 + start.since first.weekday + ((week : Int) - 1) * 7 + w.since start
    match Date.ofOrdinal? y n.toNat with
    | some t => if n ≤ 0 then .error .wrong else .ok t
    | none => .error .wrong

def verified (t : Option Date) (ok : Date → Bool) : Except Lack Date :=
  match t with
  | some t => if ok t then .ok t else .error .wrong
  | none => .error .wrong

/-- The date that the fields determine: by month and day, else by the number of the day, else by
one of the three kinds of week. -/
def date (f : Fields) : Except Lack Date := do
  let year ← resolveYear f.year f.century f.yearOfCentury
  let isoYear ← resolveYear f.isoYear none f.isoYearOfCentury
  let agrees := fun t => f.allowsCivil t && f.allowsIso t && f.allowsOrdinal t
  match year, f.month, f.day with
  | some y, some m, some d =>
    verified (Date.ofCivil? y m d) fun t => f.allowsIso t && f.allowsOrdinal t
  | _, _, _ => match year, f.ordinal with
    | some y, some n => verified (Date.ofOrdinal? y n) agrees
    | _, _ => match year, f.weekFromSunday, f.weekday with
      | some y, some w, some d => verified (some (← weekDate y w d sunday)) agrees
      | _, _, _ => match year, f.weekFromMonday, f.weekday with
        | some y, some w, some d => verified (some (← weekDate y w d monday)) agrees
        | _, _, _ => match isoYear, f.isoWeek, f.weekday with
          | some y, some w, some d =>
            verified (Date.ofIsoWeek? y w d) fun t => f.allowsCivil t && f.allowsOrdinal t
          | _, _, _ => .error .few

/-- The time that the fields determine. Seconds may be left out, but not under nanoseconds. -/
def time (f : Fields) : Except Lack Time :=
  match f.halfDay, f.hourOfHalf, f.minute with
  | some half, some hour, some minute =>
    let (second, leap) := if f.second = some 60 then (59, 1000000000) else (f.second.getD 0, 0)
    let seconds := (half * 12 + hour) * 3600 + minute * 60 + second
    match f.nanosecond with
    | none => .ok ⟨seconds, leap⟩
    | some n => if f.second.isSome then .ok ⟨seconds, leap + n⟩ else .error .few
  | _, _, _ => .error .few

/-- Fill in the fields of a moment that a timestamp names, `offset` seconds ahead of it. -/
def fillFrom (f : Fields) (timestamp offset : Int) : Option Fields := do
  let instant := timestamp + offset
  if !Number.Decimal.inInt64 instant then none
  let m ← Moment.ofSeconds? instant
  let (m, f) ←
    if f.second = some 60 then
      if m.time.seconds % 60 = 59 then some (m, f)
      else if m.time.seconds % 60 = 0 then (Moment.ofSeconds? (instant - 1)).map (·, f)
      else none
    else (f.setSecond (m.time.seconds % 60)).map (m, ·)
  let f ← f.setYear m.date.year
  let f ← f.setOrdinal m.date.ordinal
  let f ← f.setHour (m.time.seconds / 3600)
  f.setMinute (m.time.seconds / 60 % 60)

def isWrong {α : Type} : Except Lack α → Bool
  | .error .wrong => true
  | _ => false

/-- The local moment that the fields determine, `offset` seconds ahead of universal time. A
timestamp must agree with the other fields, up to a leap second, or supplies what they lack. -/
def moment? (f : Fields) (offset : Int) : Option Moment :=
  match f.date, f.time with
  | .ok d, .ok t =>
    let m : Moment := ⟨d, t⟩
    let universal := m.seconds - offset
    match f.timestamp with
    | none => some m
    | some s =>
      if s = universal || (1000000000 ≤ t.nanos && s = universal + 1) then some m else none
  | d, t =>
    if isWrong d || isWrong t then none
    else match f.timestamp with
      | none => none
      | some s => do
        let f ← f.fillFrom s offset
        match f.date, f.time with
        | .ok d, .ok t => some ⟨d, t⟩
        | _, _ => none

/-- The moment in universal time, when the offset is known: it is given, or zero beside a
timestamp. -/
def universal? (f : Fields) : Option Int := do
  let offset ← f.offset.or (f.timestamp.map fun _ => 0)
  let m ← f.moment? offset
  if offset ≤ -86400 || 86400 ≤ offset then none
  let shifted : Date := ⟨(m.seconds - offset) / 86400⟩
  if shifted.inRange then some (m.micros - offset * 1000000) else none

/-- Microseconds since 1970 of what the fields say: in universal time if an offset is known,
else of the local moment, else of the midnight that begins the date. -/
def micros? (f : Fields) : Option Int :=
  match f.universal? with
  | some n => some n
  | none => match f.moment? 0 with
    | some m => some m.micros
    | none => match f.date with
      | .ok d => some (d.days * 86400000000)
      | .error _ => none

end Fields
end Tabular.Calendar
