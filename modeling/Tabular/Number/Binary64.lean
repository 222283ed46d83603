import Tabular.Number.Decimal

/-! # Doubles

IEEE 754 binary64 values kept as their 64 bits. Rounding is exact: a nonnegative quotient of
natural numbers goes to the nearest double, a tie to the even one, so reading a decimal text
and the arithmetic below round once and never twice.
-/
namespace Tabular.Number

/-- A double, as its bits: sign, eleven bits of exponent, 52 bits of fraction. -/
structure Binary64 where
  bits : UInt64
  deriving DecidableEq, Repr, Inhabited

namespace Binary64

def ofMagnitude (negative : Bool) (magnitude : Nat) : Binary64 :=
  ⟨UInt64.ofNat (magnitude + if negative then 9223372036854775808 else 0)⟩

def infinityBits : Nat := 0x7FF0000000000000

def infinity (negative : Bool) : Binary64 := ofMagnitude negative infinityBits

def notANumber : Binary64 := ofMagnitude false 0x7FF8000000000000

def negative (x : Binary64) : Bool := 9223372036854775808 ≤ x.bits.toNat

def magnitude (x : Binary64) : Nat := x.bits.toNat % 9223372036854775808

def isNaN (x : Binary64) : Bool := infinityBits < x.magnitude
def isInfinite (x : Binary64) : Bool := x.magnitude == infinityBits
def isFinite (x : Binary64) : Bool := x.magnitude < infinityBits

def twoTo (n : Nat) : Nat := Nat.pow 2 n

def significand (x : Binary64) : Nat :=
  let fraction := x.magnitude % twoTo 52
  if x.magnitude / twoTo 52 = 0 then fraction else fraction + twoTo 52

/-- The exponent of the last place of a finite magnitude, counted from `2 ^ (-1074)`. -/
def place (x : Binary64) : Nat := x.magnitude / twoTo 52 - 1

def ratio (x : Binary64) : Nat × Nat := (x.significand * twoTo x.place, twoTo 1074)

/-- `num / den` to the nearest natural number, a tie to the even one. -/
def roundDiv (num den : Nat) : Nat :=
  let q := num / den
  let r := num % den
  if den < 2 * r || (2 * r == den && q % 2 == 1) then q + 1 else q

/-- The greatest `k` with `2 ^ k ≤ num / den`, counted from `2 ^ (-1074)` and not below it;
`num` is counted in units of `2 ^ (-1074)` already. -/
def binaryOrder (num den : Nat) : Nat :=
  let estimate := Nat.log2 num - Nat.log2 den
  if num < den * twoTo estimate then estimate - 1 else estimate

/-- The magnitude bits nearest to `num / den`. In units of `2 ^ (-1074)` the quotient keeps 53
places; a carry out of them moves into the exponent by itself. -/
def roundMagnitude (num den : Nat) : Nat :=
  let scaled := num * twoTo 1074
  let drop := binaryOrder scaled den - 52
  min (drop * twoTo 52 + roundDiv scaled (den * twoTo drop)) infinityBits

def ofRatio (negative : Bool) (num den : Nat) : Binary64 :=
  ofMagnitude negative (roundMagnitude num den)

def ofNat (n : Nat) : Binary64 := ofRatio false n 1

def scale (x : Binary64) (n : Nat) : Binary64 :=
  let (num, den) := x.ratio
  ofRatio x.negative (num * n) den

def divide (x y : Binary64) : Binary64 :=
  let (num, den) := x.ratio
  let (num', den') := y.ratio
  ofRatio (x.negative != y.negative) (num * den') (den * num')

/-- The double nearest to `mantissa * 10 ^ exponent`. Beyond the range in which the digits can
matter the answer is infinity or zero, so no great power of ten is ever formed. -/
def ofDecimal (negative : Bool) (mantissa : Nat) (exponent : Int) : Binary64 :=
  if mantissa = 0 then ofMagnitude negative 0
  else
    let order : Int := (Decimal.digits mantissa).length + exponent
    if 310 < order then infinity negative
    else if order < -330 then ofMagnitude negative 0
    else if 0 ≤ exponent then ofRatio negative (mantissa * Decimal.tenTo exponent.toNat) 1
    else ofRatio negative mantissa (Decimal.tenTo (-exponent).toNat)

/-! ## Reading -/

/-- An unsigned decimal: digits, a point, digits, an exponent. Digits are needed on one side of
the point, and after the exponent mark. -/
def decimal? (negative : Bool) (cs : List Char) : Option Binary64 :=
  let whole := cs.takeWhile Decimal.isDigit
  let rest := cs.dropWhile Decimal.isDigit
  let (fraction, rest) := match rest with
    | '.' :: r => (r.takeWhile Decimal.isDigit, r.dropWhile Decimal.isDigit)
    | r => ([], r)
  if whole.isEmpty && fraction.isEmpty then none
  else
    let mantissa := Decimal.value (whole ++ fraction)
    let shift : Int := -(fraction.length : Int)
    match rest with
    | [] => some (ofDecimal negative mantissa shift)
    | e :: r =>
      if e == 'e' || e == 'E' then
        let (minus, ds) := Decimal.splitSign r
        match Decimal.nat? ds with
        | some n => some (ofDecimal negative mantissa (shift + if minus then -(n : Int) else n))
        | none => none
      else none

/-- A signed decimal, `inf`, `infinity` or `nan`, the words in any case. -/
def parse? (cs : List Char) : Option Binary64 :=
  let (negative, body) := Decimal.splitSign cs
  let word := String.ofList (body.map Char.toLower)
  if word == "inf" || word == "infinity" then some (infinity negative)
  else if word == "nan" then some notANumber
  else decimal? negative body

end Binary64
end Tabular.Number
