import Tabular.Error
import Tabular.Text.Utf8

/-! # Records of delimited text

Bytes become records in one pass. A field that starts with a quote runs to the closing quote; a
doubled quote inside it is a quote, and whatever follows the closing quote is taken literally. A
record ends with a line feed or a carriage return, and line breaks between records are skipped.

Input comes in chunks. A chunk is asked for only when the bytes at hand are used up and the
record under way needs more; an empty chunk, like no chunk at all, is the end of the input for
the record that asked for it. `Delimited.readings` answers, for each request in turn, what it
finds.
-/
namespace Tabular.Delimited

inductive Chunk where
  | bytes (bs : List UInt8)
  | error (text : FileFault)
  | panic (text : String)
  | cancel
  deriving DecidableEq, Repr

/-- A record with the line its reading began on, counted from one by line feeds. -/
structure Record where
  line : Nat
  fields : List String
  deriving DecidableEq, Repr, Inhabited

inductive Item where
  | record (r : Record)
  | fault (f : DelimitedFault)
  | panic (text : String)
  | finished
  deriving DecidableEq, Repr

/-- An answer to a request; `fired` if the caller was cancelled while the request waited. -/
structure Reading where
  item : Item
  fired : Bool := false
  deriving DecidableEq, Repr

inductive Mode where
  | recordStart
  | fieldStart
  | plain
  | quoted
  | quoteSeen
  deriving DecidableEq, Repr

/-- A scan: the field and the fields of the record under way, both in reverse, the position
reached, and the position at which the record was asked for. -/
structure Scan where
  mode : Mode := .recordStart
  field : List UInt8 := []
  fields : List (List UInt8) := []
  line : Nat := 1
  byte : Nat := 0
  startLine : Nat := 1
  startByte : Nat := 0
  index : Nat := 0
  deriving Repr

def quote : UInt8 := 34
def lineFeed : UInt8 := 10
def carriageReturn : UInt8 := 13

def endsRecord (b : UInt8) : Bool := b == lineFeed || b == carriageReturn

namespace Scan

def count (s : Scan) (b : UInt8) : Scan :=
  { s with byte := s.byte + 1, line := if b == lineFeed then s.line + 1 else s.line }

def push (s : Scan) (b : UInt8) : Scan := { s with mode := .plain, field := b :: s.field }

def closeField (s : Scan) : Scan :=
  { s with mode := .fieldStart, field := [], fields := s.field.reverse :: s.fields }

def close (s : Scan) : List (List UInt8) := (s.field.reverse :: s.fields).reverse

def next (s : Scan) : Scan :=
  { mode := .recordStart, field := [], fields := [], line := s.line, byte := s.byte
    startLine := s.line, startByte := s.byte, index := s.index + 1 }

/-- A byte of an unquoted field. The flag tells that the record ends. -/
def inPlain (delimiter : UInt8) (s : Scan) (b : UInt8) : Scan × Bool :=
  if b == delimiter then (s.closeField, false)
  else if endsRecord b then (s, true)
  else (s.push b, false)

def atFieldStart (delimiter : UInt8) (s : Scan) (b : UInt8) : Scan × Bool :=
  if b == quote then ({ s with mode := .quoted }, false) else inPlain delimiter s b

def step (delimiter : UInt8) (s : Scan) (b : UInt8) : Scan × Bool :=
  match s.mode with
  | .recordStart => if endsRecord b then (s, false) else atFieldStart delimiter s b
  | .fieldStart => atFieldStart delimiter s b
  | .plain => inPlain delimiter s b
  | .quoted =>
    if b == quote then ({ s with mode := .quoteSeen }, false)
    else ({ s with field := b :: s.field }, false)
  | .quoteSeen =>
    if b == quote then ({ s with mode := .quoted, field := b :: s.field }, false)
    else inPlain delimiter s b

end Scan

/-- Texts of fields, or the number of the first that is none and where it goes wrong. -/
def textsFrom (n : Nat) : List (List UInt8) → Except (Nat × Nat) (List String)
  | [] => .ok []
  | f :: fs => match Text.Utf8.decode f with
    | .error i => .error (n, i)
    | .ok s => (textsFrom (n + 1) fs).map (s :: ·)

def Scan.item (s : Scan) : Item :=
  match textsFrom 0 s.close with
  | .ok fields => .record ⟨s.startLine, fields⟩
  | .error (field, i) => .fault (.notUtf8 s.index s.startLine field s.startByte i)

/-- Scan the bytes of a chunk: the items that end in it, each with the flag of the first request
still open, and the scan at its end with the flag that remains. -/
def scanBytes (delimiter : UInt8) (s : Scan) (fired : Bool) :
    List UInt8 → List Reading × Scan × Bool
  | [] => ([], s, fired)
  | b :: bs =>
    let (s', ended) := (s.count b).step delimiter b
    if ended then
      let (rs, rest) := scanBytes delimiter s'.next false bs
      (⟨s'.item, fired⟩ :: rs, rest)
    else scanBytes delimiter s' fired bs

/-- Drop a byte order mark; only the very first bytes of the input can be one. -/
def dropMark (s : Scan) (bs : List UInt8) : Scan × List UInt8 :=
  match bs with
  | 0xEF :: 0xBB :: 0xBF :: r => ({ s with byte := s.byte + 3 }, r)
  | _ => (s, bs)

/-- The answers to all requests. A record that the end of the input cuts off counts as whole;
after the end, a file fault or a panic there is nothing more to read. -/
def readingsFrom (delimiter : UInt8) (s : Scan) (first fired : Bool) :
    List Chunk → List Reading
  | [] =>
    if s.mode = .recordStart then [⟨.finished, fired⟩] else [⟨s.item, fired⟩, ⟨.finished, false⟩]
  | .bytes bs :: cs =>
    let (s, bs) := if first then dropMark s bs else (s, bs)
    if bs.isEmpty then
      if s.mode = .recordStart then [⟨.finished, fired⟩]
      else ⟨s.item, fired⟩ :: readingsFrom delimiter s.next false false cs
    else
      let (rs, s, fired) := scanBytes delimiter s fired bs
      rs ++ readingsFrom delimiter s false fired cs
  | .error t :: _ => [⟨.fault (.file t), fired⟩, ⟨.finished, false⟩]
  | .panic t :: _ => [⟨.panic t, fired⟩]
  | .cancel :: cs => readingsFrom delimiter s first true cs

def readings (delimiter : UInt8) (chunks : List Chunk) : List Reading :=
  readingsFrom delimiter {} true false chunks

end Tabular.Delimited
