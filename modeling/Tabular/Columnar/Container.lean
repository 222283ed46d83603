import Tabular.Config.Encoding
import Tabular.Json.Reader
import Tabular.Json.Printer
import Tabular.Table.Batch
import Tabular.Text.Utf8

/-! # Containers of columnar files

A columnar file holds a layout and the columns of its parts between two magic words; it is whole
only when the second one is there. What stands between them is one JSON document in which every
cell is written so that its column's type tells how to read it: a double as its bits, an integer
and a timestamp as they are. The document is of this library's own and stands for the bytes of real
columnar files; nothing but what is kept and what is lost of a table is meant by it.
-/
namespace Tabular.Columnar

structure Part where
  rows : Nat
  columns : List (List Cell)
  deriving Repr, Inhabited

/-- What a columnar file holds. A part whose columns are not those of the layout is lost. -/
structure Container where
  layout : Layout
  parts : List (Option Part)
  deriving Repr, Inhabited

/-! ## Types -/

mutual

def encodeType : ColumnType → Json
  | .list t => .object [("list", encodeType t)]
  | .struct fs => .object [("struct", .array (encodeFieldTypes fs))]
  | t => .string t.name

def encodeFieldTypes : FieldTypes → List Json
  | .nil => []
  | .cons n t fs => .array [.string n, encodeType t] :: encodeFieldTypes fs

end

mutual

def decodeType? : Json → Option ColumnType
  | .string s => some (.ofName s)
  | .object [("list", t)] => (decodeType? t).map .list
  | .object [("struct", .array fs)] => (decodeFieldTypes? fs).map .struct
  | _ => none

def decodeFieldTypes? : List Json → Option FieldTypes
  | [] => some .nil
  | .array [.string n, t] :: fs => do
    let t ← decodeType? t
    let fs ← decodeFieldTypes? fs
    some (.cons n t fs)
  | _ :: _ => none

end

/-! ## Cells -/

def encodeCell : Cell → Json
  | .null => .null
  | .boolean b => .bool b
  | .int i => .number (Number.Decimal.ofInt i)
  | .float x => .ofNat x.bits.toNat
  | .timestamp t => .number (Number.Decimal.ofInt t)
  | .text s => .string s
  | .list items => .array (items.map encodeCell)
  | .struct fields => .array (fields.map encodeCell)

mutual

def decodeCell? : ColumnType → Json → Option Cell
  | _, .null => some .null
  | .boolean, .bool b => some (.boolean b)
  | .int _, .number t => (Number.Decimal.int64? t.toList).map .int
  | .float64, .number t =>
    (Number.Decimal.nat64? t.toList).map fun n => .float ⟨UInt64.ofNat n⟩
  | .timestamp _ _, .number t => (Number.Decimal.int64? t.toList).map .timestamp
  | .utf8, .string s => some (.text s)
  | .list t, .array items => (items.mapM (decodeCell? t)).map .list
  | .struct fs, .array items => (decodeFields? fs items).map .struct
  | _, _ => none

def decodeFields? : FieldTypes → List Json → Option (List Cell)
  | .nil, [] => some []
  | .cons _ t fs, v :: vs => do
    let c ← decodeCell? t v
    let cs ← decodeFields? fs vs
    some (c :: cs)
  | _, _ => none

end

/-! ## Containers -/

def encodeColumn (c : Column) : Json :=
  .array [.string c.name, encodeType c.type, .bool c.nullable]

def decodeColumn? : Json → Option Column
  | .array [.string name, type, .bool nullable] => do
    let type ← decodeType? type
    some { name, type, nullable }
  | _ => none

def Part.encode (p : Part) : Json := .object [
  ("rows", .ofNat p.rows),
  ("columns", .array (p.columns.map fun c => .array (c.map encodeCell)))]

def decodeColumns? : List ColumnType → List Json → Option (List (List Cell))
  | [], [] => some []
  | t :: ts, .array cells :: cs => do
    let cells ← cells.mapM (decodeCell? t)
    let rest ← decodeColumns? ts cs
    some (cells :: rest)
  | _, _ => none

/-- Some rows from their document, which is null if they are lost. -/
def Part.decode? (types : List ColumnType) : Json → Option (Option Part)
  | .null => some none
  | .object [("rows", .number n), ("columns", .array cs)] => do
    let rows ← Number.Decimal.nat? n.toList
    let columns ← decodeColumns? types cs
    some (some { rows, columns })
  | _ => none

namespace Container

def encode (c : Container) : Json := .object [
  ("columns", .array (c.layout.columns.map encodeColumn)),
  ("metadata", Schema.encodeMetadata c.layout.metadata),
  ("parts", .array (c.parts.map (Json.ofOption Part.encode)))]

def decode? : Json → Option Container
  | .object [("columns", .array cs), ("metadata", ms), ("parts", .array ps)] => do
    let columns ← cs.mapM decodeColumn?
    let metadata ← Schema.decodeMetadata? ms
    let parts ← ps.mapM (Part.decode? (columns.map Column.type))
    some { layout := { columns, metadata }, parts }
  | _ => none

def bytes (magic : String) (c : Container) : List UInt8 :=
  Text.Utf8.encode (magic ++ "\n" ++ c.encode.compact ++ "\n" ++ magic)

def begun (magic : String) : List UInt8 := Text.Utf8.encode (magic ++ "\n")

def ofBytes? (magic : String) (bytes : List UInt8) : Option Container := do
  let text ← Text.Utf8.decode? bytes
  let middle ← ColumnType.between? (magic ++ "\n").toList ("\n" ++ magic).toList text.toList
  decode? (← Json.parse? middle)

end Container
end Tabular.Columnar
