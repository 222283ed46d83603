import Tabular.Calendar.Moment
import Tabular.Json.Printer
import Tabular.Number.Shortest
import Tabular.Table.Batch
import Tabular.Text.Utf8

/-! # Writing records of JSON

Each row becomes an object on a line of its own. Members that are null are left out, also inside
structures; items of a list are never left out. A number that JSON has no text for is written as
null, and a timestamp without a date as a text that says so.
-/
namespace Tabular.Ndjson

def timestampText (t : Int) : String :=
  match Calendar.printMicros? t with
  | some s => s
  | none =>
    "ERROR: Cast error: Failed to convert " ++ Number.Decimal.ofInt t ++ " to datetime for " ++
      ColumnType.micros.name

mutual

def encodeCell : ColumnType → Cell → Json
  | .list t, .list items => .array (items.map (encodeCell t))
  | .struct fs, .struct cells => .object (encodeFields fs cells)
  | _, .boolean b => .bool b
  | _, .int i => .number (Number.Decimal.ofInt i)
  | _, .float x => if x.isFinite then .number (Number.FloatStyle.json.text x) else .null
  | _, .timestamp t => .string (timestampText t)
  | _, .text s => .string s
  | _, _ => .null

def encodeFields : FieldTypes → List Cell → List (String × Json)
  | .cons n t fs, c :: cs =>
    let rest := encodeFields fs cs
    if c.isNull then rest else (n, encodeCell t c) :: rest
  | _, _ => []

end

def encodeRow (columns : List Column) (row : List Cell) : Json :=
  .object (encodeFields (.ofList (columns.map fun c => (c.name, c.type))) row)

def encodeBatch (b : Batch) : List UInt8 :=
  b.rowList.flatMap fun row =>
    Text.Utf8.encode (Json.compact (encodeRow b.layout.columns row) ++ "\n")

/-- A writer; `pieces` is what was written, the latest piece first. -/
structure Writer where
  pieces : List (List UInt8) := []

def Writer.bytes (w : Writer) : List UInt8 := w.pieces.reverse.flatten

def Writer.write (w : Writer) (b : Batch) : Writer := { pieces := encodeBatch b :: w.pieces }

end Tabular.Ndjson
