import Tabular.Number.Binary64

/-! # Shortest decimal text of a double

`shortest` finds the decimal with the fewest digits that still rounds to a given positive
finite double, the nearest such decimal when there are several and the even one when two are
equally near. A `FloatStyle` then lays the digits out: where positional notation ends, and how
a scientific number looks.
-/
namespace Tabular.Number

/-- A decimal: `digits`, the last of them not zero, times ten to the `exponent`. -/
structure Shortest where
  digits : List Char
  exponent : Int
  deriving DecidableEq, Repr

namespace Shortest

/-- The reals that round to a double: a closed or open interval over one denominator. -/
structure Interval where
  low : Nat
  value : Nat
  high : Nat
  den : Nat
  closed : Bool

/-- The interval of a positive finite double. Its ends lie half a place off, below a power of
two a quarter, and belong to it when the significand is even. -/
def Interval.of (x : Binary64) : Interval :=
  let m := x.significand
  let unit := Binary64.twoTo x.place
  let gap := if m = Binary64.twoTo 52 && 1 < x.magnitude / Binary64.twoTo 52 then 1 else 2
  { low := (4 * m - gap) * unit, value := 4 * m * unit, high := (4 * m + 2) * unit
    den := 4 * Binary64.twoTo 1074, closed := m % 2 == 0 }

def Interval.holds (i : Interval) (unit : Int) (n : Nat) : Bool :=
  let point := n * Decimal.tenTo unit.toNat * i.den
  let scale := Decimal.tenTo (-unit).toNat
  if i.closed then i.low * scale ≤ point && point ≤ i.high * scale
  else i.low * scale < point && point < i.high * scale

/-- The greatest `k` with `10 ^ k ≤ num / den`, both positive. -/
def decimalOrder (num den : Nat) : Int :=
  if den ≤ num then ((Decimal.digits (num / den)).length : Int) - 1
  else
    let above := (Decimal.digits (den / num)).length - 1
    if den ≤ num * Decimal.tenTo above then -(above : Int) else -((above : Int) + 1)

/-- The best multiple of `10 ^ unit` in the interval, among the two neighbours of its value. -/
def Interval.nearest? (i : Interval) (unit : Int) : Option Nat :=
  let num := i.value * Decimal.tenTo (-unit).toNat
  let den := i.den * Decimal.tenTo unit.toNat
  let q := num / den
  let r := num % den
  let below := i.holds unit q && 0 < q
  let above := i.holds unit (q + 1)
  if below && above then
    some (if 2 * r < den || (2 * r == den && q % 2 == 0) then q else q + 1)
  else if below then some q
  else if above then some (q + 1)
  else none

def normalize (digits : List Char) (exponent : Int) : Shortest :=
  let kept := (digits.reverse.dropWhile (· == '0')).reverse
  ⟨kept, exponent + (digits.length - kept.length : Nat)⟩

/-- Try `n` more grids, each ten times finer than the one before. -/
def search (i : Interval) (unit : Int) : Nat → Shortest
  | 0 => normalize (Decimal.digits (Binary64.roundDiv (i.value * Decimal.tenTo (-unit).toNat)
      (i.den * Decimal.tenTo unit.toNat))) unit
  | n + 1 => match i.nearest? unit with
    | some q => normalize (Decimal.digits q) unit
    | none => search i (unit - 1) n

/-- The shortest decimal of a positive finite double; seventeen digits always suffice. -/
def of (x : Binary64) : Shortest :=
  let i := Interval.of x
  search i (decimalOrder i.value i.den) 17

end Shortest

/-- How doubles are laid out. A number whose leading digit stands for ten to the `e` is written
positionally when `lowest ≤ e ≤ highest`, else as digits, `e` and the exponent;
`pointAlways` asks for a fractional digit in front of the exponent also. -/
structure FloatStyle where
  lowest : Int
  highest : Int
  pointAlways : Bool

namespace FloatStyle

/-- Put a point into digits whose leading one stands for ten to the `order`. -/
def positional (digits : List Char) (order : Int) : List Char :=
  if order < 0 then '0' :: '.' :: (List.replicate ((-order).toNat - 1) '0' ++ digits)
  else
    let whole := order.toNat + 1
    let padded := digits ++ List.replicate (whole - digits.length) '0'
    let fraction := padded.drop whole
    padded.take whole ++ '.' :: (if fraction.isEmpty then ['0'] else fraction)

def scientific (pointAlways : Bool) (digits : List Char) (order : Int) : List Char :=
  let tail := match digits.drop 1 with
    | [] => if pointAlways then ['.', '0'] else []
    | ds => '.' :: ds
  digits.take 1 ++ tail ++ 'e' :: (Decimal.ofInt order).toList

def finite (style : FloatStyle) (x : Binary64) : String :=
  let sign := if x.negative then ['-'] else []
  if x.magnitude = 0 then String.ofList (sign ++ ['0', '.', '0'])
  else
    let d := Shortest.of x
    let order := d.exponent + d.digits.length - 1
    let body :=
      if style.lowest ≤ order && order ≤ style.highest then positional d.digits order
      else scientific style.pointAlways d.digits order
    String.ofList (sign ++ body)

def text (style : FloatStyle) (x : Binary64) : String :=
  if x.isNaN then "NaN"
  else if x.isInfinite then (if x.negative then "-inf" else "inf")
  else style.finite x

/-- Delimited text writes up to sixteen places in front of the point. -/
def delimited : FloatStyle := ⟨-5, 15, false⟩

/-- Lines of JSON turn to exponents from ten billion on. -/
def json : FloatStyle := ⟨-5, 9, true⟩

end FloatStyle
end Tabular.Number
