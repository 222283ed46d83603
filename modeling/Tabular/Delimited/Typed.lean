import Tabular.Delimited.Value
import Tabular.Schema.Basic
import Tabular.Table.Batch

/-! # Typed rows

Rows of texts become a batch under a schema. Columns are read one after the other, each from its
first row to its last, so the error is that of the first column with a value it cannot hold; that
a column must not have nulls is checked when all columns have been read.
-/
namespace Tabular.Delimited

open Schema (Field Tag)

def cell? (pattern : String) (tag : Tag) (value : String) : Option Cell :=
  match tag with
  | .int64 => (int? value).map .int
  | .float64 => (float? value).map .float
  | .boolean => (bool? value).map .boolean
  | .timestamp => (Calendar.timestamp? pattern value).map .timestamp
  | .string | .unset => some (.text value)

/-- A raw value as a cell. A text is kept as it is; all else is trimmed. -/
def cell (o : Options) (pattern : String) (f : Field) (raw : String) : Except Error Cell :=
  if o.isNull raw then .ok .null
  else match f.tag with
    | .string | .unset => .ok (.text raw)
    | tag => match cell? pattern tag (Text.strip raw) with
      | some c => .ok c
      | none => .error (.schema (.unreadable f.name raw tag))

def cells (o : Options) (pattern : String) (f : Field) : List String → Except Error (List Cell)
  | [] => .ok []
  | raw :: raws => do
    let c ← cell o pattern f raw
    let cs ← cells o pattern f raws
    pure (c :: cs)

/-- The cells of a column. A column of timestamps needs a pattern even if it holds only nulls. -/
def column (o : Options) (f : Field) (raws : List String) : Except Error (List Cell) :=
  match f.tag, o.timestampFormat with
  | .timestamp, none => .error (.schema (.noTimestampFormat f.name))
  | _, pattern => cells o (pattern.getD "") f raws

def columns (o : Options) : List Field → List (List String) → Except Error (List (List Cell))
  | [], _ => .ok []
  | f :: fs, rows => do
    let c ← column o f (rows.filterMap List.head?)
    let cs ← columns o fs (rows.map List.tail)
    pure (c :: cs)

def batch (o : Options) (s : Schema) (rows : List (List String)) : Except Error Batch := do
  let cs ← columns o s.fields rows
  match Batch.ofColumns s.toLayout none cs with
  | .ok b => .ok b
  | .error f => .error (.columnar f)

end Tabular.Delimited
