import Tabular.Number.Decimal

/-! # Sizes on a machine

Sizes are words of 64 bits, and what they size has limits of its own: a product has to be a word
again, one allocation takes half of the bytes that words count, and a queue between two tasks has an
eighth as many places. Going beyond a limit is a panic. Running out of memory or of threads before
that is not looked at.
-/
namespace Tabular.Machine

def wordMax : Nat := Number.Decimal.nat64Max

/-- The most bytes of one allocation. -/
def bytesMax : Nat := wordMax / 2

/-- The most places of a queue between two tasks. -/
def placesMax : Nat := wordMax / 8

/-- The bytes that a record takes in a batch under way. -/
def handleBytes : Nat := 8

inductive Excess where
  | product
  | allocation
  | places
  deriving DecidableEq, Repr

def Excess.text : Excess → String
  | product => "attempt to multiply with overflow"
  | allocation => "capacity overflow"
  | places => "a semaphore may not have more than MAX_PERMITS permits (" ++
      Number.Decimal.ofNat placesMax ++ ")"

def within (limit : Nat) (x : Excess) (size : Nat) : Except Excess Nat :=
  if size ≤ limit then .ok size else .error x

end Tabular.Machine
