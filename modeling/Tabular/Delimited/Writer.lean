import Tabular.Calendar.Moment
import Tabular.Delimited.Record
import Tabular.Number.Shortest
import Tabular.Table.Batch

/-! # Writing delimited text

A field stands between quotes if it holds the delimiter, a quote or a line break; quotes inside
it are doubled. A record ends with a line feed, and one that would be empty is written as a pair of
quotes, since an empty line is no record.

Every record has to have as many fields as the first. One that has not is refused, but what was
written of it stays, and the next record goes on behind it.
-/
namespace Tabular.Delimited

def needsQuotes (delimiter : UInt8) (field : List UInt8) : Bool :=
  field.any fun b => b == delimiter || b == quote || endsRecord b

def doubleQuote (b : UInt8) : List UInt8 := if b == quote then [quote, quote] else [b]

def encodeField (delimiter : UInt8) (field : List UInt8) : List UInt8 :=
  if needsQuotes delimiter field then quote :: (field.flatMap doubleQuote ++ [quote]) else field

def encodeFields (delimiter : UInt8) (fields : List (List UInt8)) : List UInt8 :=
  [delimiter].intercalate (fields.map (encodeField delimiter))

/-- Whether a column type has no text of its own in a record. -/
def isNested : ColumnType → Bool
  | .list _ | .struct _ => true
  | _ => false

def cellText : Cell → Except ColumnarFault String
  | .null | .list _ | .struct _ => .ok ""
  | .boolean b => .ok (if b then "true" else "false")
  | .int i => .ok (Number.Decimal.ofInt i)
  | .float x => .ok (Number.FloatStyle.delimited.text x)
  | .timestamp t => match Calendar.printMicros? t with
    | some s => .ok s
    | none => .error (.timestampRange t)
  | .text s => .ok s

/-- A writer. `pieces` is what was written, the latest piece first; `width` is the number of
fields of the first record, `pending` counts the fields of a record that was refused, and
`touched` tells that bytes of one are waiting for its end. -/
structure Writer where
  delimiter : UInt8
  pieces : List (List UInt8) := []
  headed : Bool := false
  width : Option Nat := none
  pending : Nat := 0
  touched : Bool := false

namespace Writer

def bytes (w : Writer) : List UInt8 := w.pieces.reverse.flatten

def add (w : Writer) (bs : List UInt8) : Writer := { w with pieces := bs :: w.pieces }

def check (w : Writer) : Except ColumnarFault Unit × Writer :=
  match w.width with
  | none => (.ok (), { w with width := some w.pending })
  | some n => if n = w.pending then (.ok (), w) else (.error (.unevenRecord w.pending n), w)

/-- Write a record field by field. A record without a single byte becomes a pair of quotes. -/
def writeFields (w : Writer) (fields : List (List UInt8)) : Except ColumnarFault Unit × Writer :=
  let lead := if 0 < w.pending && !fields.isEmpty then [w.delimiter] else []
  let body := lead ++ encodeFields w.delimiter fields
  let touched := w.touched || !body.isEmpty
  let w := { w.add body with pending := w.pending + fields.length, touched }
  match w.check with
  | (.error f, w) => (.error f, w)
  | (.ok _, w) =>
    let w := if touched then w else w.add [quote, quote]
    (.ok (), { w.add [lineFeed] with pending := 0, touched := false })

/-- Write a row. One that has any bytes is written as a whole, and forgets a record before it that
was refused. -/
def writeRow (w : Writer) (fields : List (List UInt8)) : Except ColumnarFault Unit × Writer :=
  if fields.all List.isEmpty then w.writeFields fields
  else
    let w := { w.add (encodeFields w.delimiter fields) with pending := fields.length }
    match w.check with
    | (.error f, w) => (.error f, w)
    | (.ok _, w) => (.ok (), { w.add [lineFeed] with pending := 0 })

def writeRows (w : Writer) : List (List Cell) → Except ColumnarFault Unit × Writer
  | [] => (.ok (), w)
  | row :: rows => match row.mapM cellText with
    | .error f => (.error f, w)
    | .ok texts => match w.writeRow (texts.map Text.Utf8.encode) with
      | (.error f, w) => (.error f, w)
      | (.ok _, w) => writeRows w rows

def writeHeader (w : Writer) (columns : List Column) : Except ColumnarFault Unit × Writer :=
  if w.headed then (.ok (), w)
  else match w.writeFields (columns.map fun c => Text.Utf8.encode c.name) with
    | (.error f, w) => (.error f, w)
    | (.ok _, w) => (.ok (), { w with headed := true })

/-- Write a batch, with the names of its columns in front of the first one. -/
def write (w : Writer) (b : Batch) : Except ColumnarFault Unit × Writer :=
  match w.writeHeader b.layout.columns with
  | (.error f, w) => (.error f, w)
  | (.ok _, w) => match b.layout.columns.find? (isNested ·.type) with
    | some c => (.error (.nestedColumn c.name), w)
    | none => w.writeRows b.rowList

end Writer
end Tabular.Delimited
