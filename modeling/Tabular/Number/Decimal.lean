/-! # Decimal integers

Digits of natural numbers and the reading of signed and unsigned 64-bit integers. A sign may
stand in front of a signed number and `+` in front of an unsigned one; nothing else but ASCII
digits is accepted, at least one of them.
-/
namespace Tabular.Number.Decimal

def digit (n : Nat) : Char := Char.ofNat (48 + n % 10)

/-- The digits of `n`, most significant first, without leading zeros. -/
def digits (n : Nat) : List Char :=
  if n < 10 then [digit n] else digits (n / 10) ++ [digit n]

def ofNat (n : Nat) : String := String.ofList (digits n)

def ofInt (i : Int) : String := if i < 0 then "-" ++ ofNat i.natAbs else ofNat i.natAbs

def padded (width n : Nat) : List Char :=
  let ds := digits n
  List.replicate (width - ds.length) '0' ++ ds

def isDigit (c : Char) : Bool := '0' ≤ c && c ≤ '9'

def digitValue (c : Char) : Nat := c.toNat - 48

def value (cs : List Char) : Nat := cs.foldl (fun n c => n * 10 + digitValue c) 0

def tenTo (n : Nat) : Nat := Nat.pow 10 n

def nat? (cs : List Char) : Option Nat :=
  if cs.isEmpty then none else if cs.all isDigit then some (value cs) else none

def int64Min : Int := -9223372036854775808
def int64Max : Int := 9223372036854775807

def inInt64 (i : Int) : Bool := int64Min ≤ i && i ≤ int64Max

def nat64Max : Nat := 18446744073709551615

def splitSign : List Char → Bool × List Char
  | '-' :: r => (true, r)
  | '+' :: r => (false, r)
  | r => (false, r)

def int64? (cs : List Char) : Option Int :=
  let (negative, ds) := splitSign cs
  match nat? ds with
  | some n =>
    let i : Int := if negative then -(n : Int) else n
    if inInt64 i then some i else none
  | none => none

def nat64? (cs : List Char) : Option Nat :=
  let ds := match cs with
    | '+' :: r => r
    | r => r
  match nat? ds with
  | some n => if n ≤ nat64Max then some n else none
  | none => none

end Tabular.Number.Decimal
