import Tabular.Text.Blank

/-! # Timestamp patterns

A pattern describes how a timestamp is written: `%` and a letter stand for a part of it, a run of
blanks for any blanks or none, and all else for itself. `Pattern.parse?` refuses a pattern with an
unknown part, since no text can ever match it.
-/
namespace Tabular.Calendar

inductive NumberPart where
  | year
  | century
  | yearOfCentury
  | isoYear
  | isoYearOfCentury
  | month
  | day
  | weekFromSunday
  | weekFromMonday
  | isoWeek
  | weekdayFromSunday
  | weekdayFromMonday
  | ordinal
  | hour
  | hour12
  | minute
  | second
  | nanosecond
  | timestamp
  deriving DecidableEq, Repr

/-- What an offset from universal time may look like: `Z` allowed, minutes left out. -/
structure OffsetForm where
  zulu : Bool
  hoursOnly : Bool
  deriving DecidableEq, Repr

inductive Part where
  | literal (cs : List Char)
  | blanks
  | number (n : NumberPart)
  | monthName (long : Bool)
  | weekdayName (long : Bool)
  | halfDay
  | fraction
  | fractionDigits (n : Nat)
  | zoneName
  | offset (form : OffsetForm)
  | dateTimeOffset
  deriving DecidableEq, Repr

abbrev Pattern := List Part

namespace Pattern

def numberPart? : Char → Option NumberPart
  | 'Y' => some .year
  | 'C' => some .century
  | 'y' => some .yearOfCentury
  | 'G' => some .isoYear
  | 'g' => some .isoYearOfCentury
  | 'm' => some .month
  | 'd' | 'e' => some .day
  | 'U' => some .weekFromSunday
  | 'W' => some .weekFromMonday
  | 'V' => some .isoWeek
  | 'w' => some .weekdayFromSunday
  | 'u' => some .weekdayFromMonday
  | 'j' => some .ordinal
  | 'H' | 'k' => some .hour
  | 'I' | 'l' => some .hour12
  | 'M' => some .minute
  | 'S' => some .second
  | 'f' => some .nanosecond
  | 's' => some .timestamp
  | _ => none

def clock : Pattern := [
  .number .hour, .literal [':'], .number .minute, .literal [':'], .number .second]

def slashDate : Pattern := [
  .number .month, .literal ['/'], .number .day, .literal ['/'], .number .yearOfCentury]

def other? : Char → Option Pattern
  | 'a' => some [.weekdayName false]
  | 'A' => some [.weekdayName true]
  | 'b' | 'h' => some [.monthName false]
  | 'B' => some [.monthName true]
  | 'p' | 'P' => some [.halfDay]
  | 'Z' => some [.zoneName]
  | 'z' => some [.offset ⟨false, false⟩]
  | '+' => some [.dateTimeOffset]
  | 'n' | 't' => some [.blanks]
  | '%' => some [.literal ['%']]
  | 'D' | 'x' => some slashDate
  | 'F' => some [
      .number .year, .literal ['-'], .number .month, .literal ['-'], .number .day]
  | 'R' => some [.number .hour, .literal [':'], .number .minute]
  | 'T' | 'X' => some clock
  | 'r' => some [
      .number .hour12, .literal [':'], .number .minute, .literal [':'], .number .second, .blanks,
      .halfDay]
  | 'c' => some (
      [.weekdayName false, .blanks, .monthName false, .blanks, .number .day, .blanks] ++ clock ++
        [.blanks, .number .year])
  | 'v' => some [
      .number .day, .literal ['-'], .monthName false, .literal ['-'], .number .year]
  | _ => none

def specifier? : List Char → Option (Pattern × List Char)
  | '-' :: c :: r | '0' :: c :: r | '_' :: c :: r => (numberPart? c).map fun n => ([.number n], r)
  | '#' :: 'z' :: r => some ([.offset ⟨true, true⟩], r)
  | ':' :: 'z' :: r => some ([.offset ⟨false, false⟩], r)
  | ':' :: ':' :: 'z' :: r => some ([.offset ⟨false, false⟩], r)
  | ':' :: ':' :: ':' :: 'z' :: r => some ([.offset ⟨false, false⟩], r)
  | '.' :: 'f' :: r => some ([.fraction], r)
  | '.' :: '3' :: 'f' :: r => some ([.fraction], r)
  | '.' :: '6' :: 'f' :: r => some ([.fraction], r)
  | '.' :: '9' :: 'f' :: r => some ([.fraction], r)
  | '3' :: 'f' :: r => some ([.fractionDigits 3], r)
  | '6' :: 'f' :: r => some ([.fractionDigits 6], r)
  | '9' :: 'f' :: r => some ([.fractionDigits 9], r)
  | c :: r => match numberPart? c with
    | some n => some ([.number n], r)
    | none => (other? c).map fun p => (p, r)
  | [] => none

/-- Read a pattern, at most `fuel` parts of it. -/
def parseFrom : Nat → List Char → Option Pattern
  | 0, cs => if cs.isEmpty then some [] else none
  | fuel + 1, cs => match cs with
    | [] => some []
    | '%' :: r => match specifier? r with
      | some (p, r) => (parseFrom fuel r).map (p ++ ·)
      | none => none
    | c :: r =>
      if Text.isBlank c then
        (parseFrom fuel (r.dropWhile Text.isBlank)).map (.blanks :: ·)
      else
        let plain := fun c => !Text.isBlank c && c != '%'
        (parseFrom fuel (r.dropWhile plain)).map (.literal (c :: r.takeWhile plain) :: ·)

def parse? (s : String) : Option Pattern := parseFrom s.toList.length s.toList

end Pattern
end Tabular.Calendar
