import Tabular.Json.Reader
import Tabular.Text.Utf8

/-! # Streams of JSON values

A reader of values that follow one another, with or without line breaks between them. It is more
lenient than a reader of a single document: commas between items may be repeated or missing, a
string may hold raw control characters, and a number is any run of the characters numbers are
made of. What a number stands for is found out when its column is known.
-/
namespace Tabular.Ndjson

def byteOf (c : Char) : UInt8 := UInt8.ofNat c.toNat

def isSpace (b : UInt8) : Bool := b == 32 || b == 9 || b == 10 || b == 13

def isGap (b : UInt8) : Bool := isSpace b || b == byteOf ','

def isNumeric (b : UInt8) : Bool :=
  (48 ≤ b && b ≤ 57) || b == byteOf '-' || b == byteOf '+' || b == byteOf '.' ||
    b == byteOf 'e' || b == byteOf 'E'

def charOf (b : UInt8) : Char := Char.ofNat b.toNat

def hex4? (bs : List UInt8) : Option (Nat × List UInt8) :=
  (Json.hex4? ((bs.take 4).map charOf)).map fun (n, _) => (n, bs.drop 4)

/-- The bytes of an escape by number: one code, or two that make a surrogate pair. -/
def unicode? (bs : List UInt8) : Option (List UInt8 × List UInt8) := do
  let (high, r) ← hex4? bs
  if high < 0xD800 || 0xDFFF < high then some (String.utf8EncodeChar (Char.ofNat high), r)
  else match r with
    | 92 :: 117 :: r => do
      let (low, r) ← hex4? r
      if high < 0xDC00 && 0xDC00 ≤ low && low ≤ 0xDFFF then
        let c := Char.ofNat (0x10000 + (high - 0xD800) * 1024 + (low - 0xDC00))
        some (String.utf8EncodeChar c, r)
      else none
    | _ => none

/-- The bytes of a string up to its closing quote; `done` holds them in reverse. -/
def stringBody (done : List UInt8) : Nat → List UInt8 → Option (String × List UInt8)
  | 0, _ => none
  | fuel + 1, bs => match bs with
    | [] => none
    | 34 :: r => (Text.Utf8.decode? done.reverse).map (·, r)
    | 92 :: 117 :: r => match unicode? r with
      | some (cs, r) => stringBody (cs.reverse ++ done) fuel r
      | none => none
    | 92 :: e :: r => match Json.shortEscape? (charOf e) with
      | some c => stringBody (byteOf c :: done) fuel r
      | none => none
    | b :: r => if b == 92 then none else stringBody (b :: done) fuel r

def word? (word : String) (bs : List UInt8) : Option (List UInt8) :=
  let w := word.toList.map byteOf
  if w.isPrefixOf bs then some (bs.drop w.length) else none

mutual

def readValue? (fuel : Nat) (bs : List UInt8) : Option (Json × List UInt8) :=
  match fuel with
  | 0 => none
  | fuel + 1 => match bs.dropWhile isSpace with
    | [] => none
    | b :: r => match charOf b with
      | 'n' => (word? "ull" r).map (Json.null, ·)
      | 't' => (word? "rue" r).map (Json.bool true, ·)
      | 'f' => (word? "alse" r).map (Json.bool false, ·)
      | '"' => (stringBody [] fuel r).map fun (s, r) => (.string s, r)
      | '[' => readItems? fuel [] r
      | '\x7b' => readMembers? fuel [] r
      | c =>
        if c == '-' || c.isDigit then
          let ds := r.takeWhile isNumeric
          some (.number (String.ofList (c :: ds.map charOf)), r.drop ds.length)
        else none

def readItems? (fuel : Nat) (done : List Json) (bs : List UInt8) : Option (Json × List UInt8) :=
  match fuel with
  | 0 => none
  | fuel + 1 => match bs.dropWhile isGap with
    | [] => none
    | b :: r =>
      if charOf b == ']' then some (.array done.reverse, r)
      else match readValue? fuel (b :: r) with
        | some (v, r) => readItems? fuel (v :: done) r
        | none => none

def readMembers? (fuel : Nat) (done : List (String × Json)) (bs : List UInt8) :
    Option (Json × List UInt8) :=
  match fuel with
  | 0 => none
  | fuel + 1 => match bs.dropWhile isGap with
    | [] => none
    | b :: r =>
      if charOf b == '\x7d' then some (.object done.reverse, r)
      else if charOf b == '"' then
        match stringBody [] fuel r with
        | none => none
        | some (k, r) => match r.dropWhile isSpace with
          | 58 :: r => match readValue? fuel r with
            | some (v, r) => readMembers? fuel ((k, v) :: done) r
            | none => none
          | _ => none
      else none

end

/-- The values of a stream, and whether it is sound to its end. -/
structure Values where
  values : List Json
  sound : Bool

/-- Read on; `done` holds the values read, in reverse, and `limit` bounds the steps a value
takes. -/
def readFrom (limit : Nat) (done : List Json) : Nat → List UInt8 → Values
  | 0, _ => ⟨done.reverse, false⟩
  | fuel + 1, bs =>
    let bs := bs.dropWhile isSpace
    if bs.isEmpty then ⟨done.reverse, true⟩
    else match readValue? limit bs with
      | some (v, r) => readFrom limit (v :: done) fuel r
      | none => ⟨done.reverse, false⟩

def Values.ofBytes (bs : List UInt8) : Values :=
  readFrom (2 * bs.length + 2) [] (bs.length + 1) bs

end Tabular.Ndjson
