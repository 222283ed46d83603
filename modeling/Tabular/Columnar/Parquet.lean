import Tabular.Columnar.Container
import Tabular.Config.Basic
import Tabular.Source.Feed

/-! # Parquet files

A Parquet file keeps columns, not batches: rows are read back in batches of any size, and metadata
is dropped. A null in a column that must not have any comes back as the zero of its type. Rows are
written in groups, and all columns of a group have to be equally long.
-/
namespace Tabular.Columnar

mutual

/-- Whether a type has a structure without fields in it, which Parquet cannot hold. -/
def hasEmptyStruct : ColumnType → Bool
  | .list t => hasEmptyStruct t
  | .struct .nil => true
  | .struct fs => anyEmptyStruct fs
  | _ => false

def anyEmptyStruct : FieldTypes → Bool
  | .nil => false
  | .cons _ t fs => hasEmptyStruct t || anyEmptyStruct fs

end

namespace Parquet

def magic : String := "PAR1"

/-- A writer: the columns written so far, and how many rows the group under way has. It is broken
once a group was found uneven. -/
structure Writer where
  layout : Layout
  groupSize : Nat
  columns : List (List Cell)
  buffered : Nat := 0
  broken : Bool := false
  finished : Bool := false

namespace Writer

def ofLayout (layout : Layout) (o : ParquetOptions) : Except Error Writer :=
  if layout.columns.any (hasEmptyStruct ·.type) then .error .parquet
  else .ok { layout, groupSize := max o.rowGroupSize 1, columns := layout.columns.map fun _ => [] }

def keep (c : Column) (cells : List Cell) : List Cell :=
  if c.nullable then cells else cells.map fun x => if x.isNull then Cell.zeroOf c.type else x

/-- Add the cells of a batch, `rows` of each column, up to the first column that is of another
type; the flag tells whether there was none. A column without cells stays as it is. -/
def append (rows : Nat) : List Column → List (List Cell) → List Column → List (List Cell) →
    List (List Cell) × Bool
  | c :: cs, kept :: ks, d :: ds, cells :: xs =>
    if c.type = d.type then
      let (rest, all) := append rows cs ks ds xs
      ((kept ++ keep c (cells.take rows)) :: rest, all)
    else (kept :: ks, false)
  | _, ks, _, _ => (ks, true)

def isEven (w : Writer) : Bool :=
  match w.columns with
  | [] => true
  | c :: cs => cs.all (·.length == c.length)

/-- Write a batch. When the group under way fills up, it has to be even. -/
def write (w : Writer) (b : Batch) : Except Error Unit × Writer :=
  if b.rows = 0 then (.ok (), w)
  else
    let room := w.groupSize - w.buffered
    let (columns, all) := append b.rows w.layout.columns w.columns b.layout.columns b.columns
    if !all then
      let n := min b.rows room
      let (columns, _) := append n w.layout.columns w.columns b.layout.columns b.columns
      (.error .parquet, { w with columns, buffered := w.buffered + n })
    else
      let w := { w with columns, buffered := w.buffered + b.rows }
      if w.buffered < w.groupSize then (.ok (), w)
      else if w.broken || !w.isEven then (.error .parquet, { w with broken := true })
      else (.ok (), { w with buffered := w.buffered % w.groupSize })

def finish (w : Writer) : Except Error Unit × Writer :=
  if w.broken || !w.isEven then (.error .parquet, { w with broken := true })
  else (.ok (), { w with finished := true })

def bytes (w : Writer) : List UInt8 :=
  if w.finished then
    let rows := (w.columns.head?.map List.length).getD 0
    Container.bytes magic ⟨⟨w.layout.columns, .empty⟩, [some ⟨rows, w.columns⟩]⟩
  else Container.begun magic

end Writer

/-! ## Reading -/

def cut (size : Nat) : Nat → Nat → List (List Cell) → List (Nat × List (List Cell))
  | 0, _, _ => []
  | fuel + 1, rows, columns =>
    if rows = 0 then []
    else
      (min rows size, columns.map (·.take size)) ::
        cut size fuel (rows - size) (columns.map (·.drop size))

def item (layout : Layout) (rows : Nat) (columns : List (List Cell)) : FeedItem :=
  match Batch.ofColumns layout (some rows) columns with
  | .ok b => .batch b
  | .error f => .error (.columnar f)

def feed (batchSize : Nat) (bytes : List UInt8) : Except Error Feed :=
  match Container.ofBytes? magic bytes with
  | some ⟨layout, [some part]⟩ =>
    if layout.columns.isEmpty then .error .parquet
    else
      let pieces := cut (max batchSize 1) part.rows part.rows part.columns
      .ok (.ofItems .parquet layout (pieces.map fun (n, cs) => item layout n cs))
  | _ => .error .parquet

end Parquet
end Tabular.Columnar
