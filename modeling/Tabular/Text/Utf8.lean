/-! # UTF-8

Bytes to characters and back. `decode` reads the shortest well-formed sequences only (no
surrogates, nothing above U+10FFFF) and, on failure, answers how many bytes before the first
bad sequence were sound.
-/
namespace Tabular.Text.Utf8

/-- A continuation byte, `10xxxxxx`. -/
def isTail (b : UInt8) : Bool := 0x80 ≤ b && b ≤ 0xBF

def tailBits (b : UInt8) : Nat := b.toNat % 64

def two? (a b : UInt8) : Option Char :=
  if 0xC2 ≤ a && a ≤ 0xDF && isTail b then some (Char.ofNat (a.toNat % 32 * 64 + tailBits b))
  else none

/-- The character of a three-byte sequence: neither overlong nor a surrogate. -/
def three? (a b c : UInt8) : Option Char :=
  let lead :=
    if a == 0xE0 then 0xA0 ≤ b && b ≤ 0xBF
    else if a == 0xED then 0x80 ≤ b && b ≤ 0x9F
    else 0xE1 ≤ a && a ≤ 0xEF && isTail b
  if lead && isTail c then
    some (Char.ofNat ((a.toNat % 16 * 64 + tailBits b) * 64 + tailBits c))
  else none

/-- The character of a four-byte sequence: neither overlong nor above U+10FFFF. -/
def four? (a b c d : UInt8) : Option Char :=
  let lead :=
    if a == 0xF0 then 0x90 ≤ b && b ≤ 0xBF
    else if a == 0xF4 then 0x80 ≤ b && b ≤ 0x8F
    else 0xF1 ≤ a && a ≤ 0xF3 && isTail b
  if lead && isTail c && isTail d then
    some (Char.ofNat (((a.toNat % 8 * 64 + tailBits b) * 64 + tailBits c) * 64 + tailBits d))
  else none

/-- Read characters from bytes that stand at index `i` of the text; an error is the index at
which the first bad sequence begins. -/
def decodeFrom (i : Nat) : List UInt8 → Except Nat (List Char)
  | [] => .ok []
  | a :: r =>
    if a < 0x80 then (decodeFrom (i + 1) r).map (Char.ofNat a.toNat :: ·)
    else match r with
      | [] => .error i
      | b :: r => match two? a b with
        | some c => (decodeFrom (i + 2) r).map (c :: ·)
        | none => match r with
          | [] => .error i
          | c :: r => match three? a b c with
            | some x => (decodeFrom (i + 3) r).map (x :: ·)
            | none => match r with
              | [] => .error i
              | d :: r => match four? a b c d with
                | some x => (decodeFrom (i + 4) r).map (x :: ·)
                | none => .error i

def decode (bytes : List UInt8) : Except Nat String :=
  (decodeFrom 0 bytes).map String.ofList

def decode? (bytes : List UInt8) : Option String := (decode bytes).toOption

def encode (s : String) : List UInt8 := s.toList.flatMap String.utf8EncodeChar

end Tabular.Text.Utf8
