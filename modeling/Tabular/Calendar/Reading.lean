import Tabular.Calendar.Pattern
import Tabular.Calendar.Fields

/-! # Reading timestamps

A text is matched against a pattern part by part; each part takes characters off the front and
says something about the moment. The whole text has to be used up.
-/
namespace Tabular.Calendar

/-- At least `least` and at most `most` digits in front, as a number of 64 bits. -/
def takeNumber (least : Nat) (most : Option Nat) (cs : List Char) : Option (Int × List Char) :=
  let ds := cs.takeWhile Number.Decimal.isDigit
  let ds := match most with
    | some n => ds.take n
    | none => ds
  let n : Int := Number.Decimal.value ds
  if ds.length < least || Number.Decimal.int64Max < n then none else some (n, cs.drop ds.length)

/-- The first three letters of each month, and what may follow them. -/
def monthNames : List (String × String) := [
  ("jan", "uary"), ("feb", "ruary"), ("mar", "ch"), ("apr", "il"), ("may", ""), ("jun", "e"),
  ("jul", "y"), ("aug", "ust"), ("sep", "tember"), ("oct", "ober"), ("nov", "ember"),
  ("dec", "ember")]

def weekdayNames : List (String × String) := [
  ("mon", "day"), ("tue", "sday"), ("wed", "nesday"), ("thu", "rsday"), ("fri", "day"),
  ("sat", "urday"), ("sun", "day")]

def startsWith (word cs : List Char) : Bool :=
  (cs.take word.length).map Char.toLower == word

/-- The number of a name in front, from zero. The part after its third letter is taken only
where a long name may stand. -/
def takeName (names : List (String × String)) (long : Bool) (cs : List Char) :
    Option (Nat × List Char) :=
  (names.zipIdx.find? fun ((short, _), _) => startsWith short.toList cs).map
    fun ((_, more), i) =>
      let rest := cs.drop 3
      if long && startsWith more.toList rest then (i, rest.drop more.length) else (i, rest)

/-- Digits after the point of a second, as nanoseconds; what is finer is dropped. -/
def takeFraction (cs : List Char) : Option (Int × List Char) :=
  let ds := cs.takeWhile Number.Decimal.isDigit
  if ds.isEmpty then none
  else some (Time.nanosOf (ds.take 9), cs.drop ds.length)

def takeFractionDigits (n : Nat) (cs : List Char) : Option (Int × List Char) :=
  let ds := (cs.take n).takeWhile Number.Decimal.isDigit
  if ds.length = n then some (Time.nanosOf ds, cs.drop n) else none

def takeTwo : List Char → Option (Nat × List Char)
  | a :: b :: r =>
    if Number.Decimal.isDigit a && Number.Decimal.isDigit b then
      some (Number.Decimal.digitValue a * 10 + Number.Decimal.digitValue b, r)
    else none
  | _ => none

/-- A sign, which may also be the minus of mathematics. -/
def takeSign : List Char → Option (Int × List Char)
  | '+' :: r => some (1, r)
  | '-' :: r => some (-1, r)
  | '−' :: r => some (-1, r)
  | _ => none

/-- An offset in seconds: a sign, two digits of hours and two of minutes, with any colons and
blanks between them. -/
def takeOffset (form : OffsetForm) (cs : List Char) : Option (Int × List Char) :=
  match cs with
  | 'Z' :: r => if form.zulu then some (0, r) else none
  | 'z' :: r => if form.zulu then some (0, r) else none
  | _ => do
    let (sign, r) ← takeSign cs
    let (hours, r) ← takeTwo r
    let r := r.dropWhile fun c => c == ':' || Text.isBlank c
    if r.isEmpty && form.hoursOnly then some (sign * (hours * 3600), r)
    else
      let (minutes, r) ← takeTwo r
      if minutes < 60 then some (sign * (hours * 3600 + minutes * 60), r) else none

def takeInto (set : Fields → Int → Option Fields) (f : Fields)
    (taken : Option (Int × List Char)) : Option (Fields × List Char) := do
  let (n, r) ← taken
  (set f n).map (·, r)

/-- A number that may have a sign; with a sign it may be of any length. -/
def takeSigned (cs : List Char) : Option (Int × List Char) :=
  match cs with
  | '-' :: r => (takeNumber 1 none r).map fun (n, r) => (-n, r)
  | '+' :: r => takeNumber 1 none r
  | _ => takeNumber 1 (some 4) cs

def takeNumberPart (n : NumberPart) (f : Fields) (cs : List Char) :
    Option (Fields × List Char) :=
  let cs := cs.dropWhile Text.isBlank
  let upTo := fun most => takeNumber 1 (some most) cs
  match n with
  | .year => takeInto Fields.setYear f (takeSigned cs)
  | .isoYear => takeInto Fields.setIsoYear f (takeSigned cs)
  | .century => takeInto Fields.setCentury f (upTo 2)
  | .yearOfCentury => takeInto Fields.setYearOfCentury f (upTo 2)
  | .isoYearOfCentury => takeInto Fields.setIsoYearOfCentury f (upTo 2)
  | .month => takeInto Fields.setMonth f (upTo 2)
  | .day => takeInto Fields.setDay f (upTo 2)
  | .weekFromSunday => takeInto Fields.setWeekFromSunday f (upTo 2)
  | .weekFromMonday => takeInto Fields.setWeekFromMonday f (upTo 2)
  | .isoWeek => takeInto Fields.setIsoWeek f (upTo 2)
  | .weekdayFromSunday => takeInto Fields.setWeekdayFromSunday f (upTo 1)
  | .weekdayFromMonday => takeInto Fields.setWeekdayFromMonday f (upTo 1)
  | .ordinal => takeInto Fields.setOrdinal f (upTo 3)
  | .hour => takeInto Fields.setHour f (upTo 2)
  | .hour12 => takeInto Fields.setHour12 f (upTo 2)
  | .minute => takeInto Fields.setMinute f (upTo 2)
  | .second => takeInto Fields.setSecond f (upTo 2)
  | .nanosecond => takeInto Fields.setNanosecond f (upTo 9)
  | .timestamp => takeInto Fields.setTimestamp f (takeNumber 1 none cs)

def takeLiteral (word cs : List Char) : Option (List Char) :=
  if word.isPrefixOf cs then some (cs.drop word.length) else none

def takePointFraction (f : Fields) (cs : List Char) : Option (Fields × List Char) :=
  match cs with
  | '.' :: r => takeInto Fields.setNanosecond f (takeFraction r)
  | _ => some (f, cs)

/-- Match a date, a time and an offset: the three as the internet standard writes them, except
that blanks may stand in front of numbers and separators, that a blank may stand for the `T`, and
that `UTC` may stand for the offset. -/
def takeDateTimeOffset (f : Fields) (cs : List Char) : Option (Fields × List Char) := do
  let gap := fun (cs : List Char) => cs.dropWhile Text.isBlank
  let (f, cs) ← takeNumberPart .year f cs
  let cs ← takeLiteral ['-'] (gap cs)
  let (f, cs) ← takeNumberPart .month f cs
  let cs ← takeLiteral ['-'] (gap cs)
  let (f, cs) ← takeNumberPart .day f cs
  let cs ← match cs with
    | 't' :: r | 'T' :: r | ' ' :: r => some r
    | _ => none
  let (f, cs) ← takeNumberPart .hour f cs
  let cs ← takeLiteral [':'] (gap cs)
  let (f, cs) ← takeNumberPart .minute f cs
  let cs ← takeLiteral [':'] (gap cs)
  let (f, cs) ← takeNumberPart .second f cs
  let (f, cs) ← takePointFraction f cs
  let cs := gap cs
  if startsWith ['u', 't', 'c'] cs then (f.setOffset 0).map (·, cs.drop 3)
  else takeInto Fields.setOffset f (takeOffset ⟨true, false⟩ cs)

def takePart (p : Part) (f : Fields) (cs : List Char) : Option (Fields × List Char) :=
  match p with
  | .literal word => (takeLiteral word cs).map (f, ·)
  | .blanks => some (f, cs.dropWhile Text.isBlank)
  | .number n => takeNumberPart n f cs
  | .monthName long => do
    let (i, r) ← takeName monthNames long cs
    (f.setMonth (i + 1)).map (·, r)
  | .weekdayName long => do
    let (i, r) ← takeName weekdayNames long cs
    if h : i < 7 then (f.setWeekday ⟨i, h⟩).map (·, r) else none
  | .halfDay =>
    if startsWith ['a', 'm'] cs then (f.setHalfDay 0).map (·, cs.drop 2)
    else if startsWith ['p', 'm'] cs then (f.setHalfDay 1).map (·, cs.drop 2)
    else none
  | .fraction => takePointFraction f cs
  | .fractionDigits n => takeInto Fields.setNanosecond f (takeFractionDigits n cs)
  | .zoneName => some (f, cs.dropWhile fun c => !Text.isBlank c)
  | .offset form => takeInto Fields.setOffset f (takeOffset form (cs.dropWhile Text.isBlank))
  | .dateTimeOffset => takeDateTimeOffset f cs

def Pattern.fields? : Pattern → Fields → List Char → Option Fields
  | [], f, cs => if cs.isEmpty then some f else none
  | p :: ps, f, cs => match takePart p f cs with
    | some (f, r) => Pattern.fields? ps f r
    | none => none

def timestamp? (pattern value : String) : Option Int := do
  let p ← Pattern.parse? pattern
  (← p.fields? {} value.toList).micros?

end Tabular.Calendar
