import Tabular.Delimited.Record
import Tabular.Delimited.Typed
import Tabular.Machine.Size

/-! # Delimited text as a source

A source that reads records, a segment of them for each batch, and types them by a schema. A
segment ends with a bad record, which is then its error, and the next read goes on behind it. A
panic while reading leaves the source closed; that is also what a read comes to which asks for more
rows than there can be room for.
-/
namespace Tabular

open Delimited (Chunk Item Reading)

/-- What a read takes off a stream of records: the rows, or what stopped it. -/
inductive Segment where
  | rows (rows : List (List String))
  | bad (e : Error)
  | panicked (text : String)
  deriving Repr

/-- A stretch of a stream: what was taken, what is left, and whether the caller was cancelled
meanwhile. -/
structure Stretch where
  segment : Segment
  rest : List Reading
  fired : Bool

/-- Take up to `left` more rows of a width; `done` are those taken, in reverse. -/
def takeSegment (width : Nat) : Nat → List (List String) → Bool → List Reading → Stretch
  | 0, done, fired, rs => ⟨.rows done.reverse, rs, fired⟩
  | _ + 1, done, fired, [] => ⟨.rows done.reverse, [], fired⟩
  | left + 1, done, fired, r :: rs =>
    let fired := fired || r.fired
    match r.item with
    | .finished => ⟨.rows done.reverse, [⟨.finished, false⟩], fired⟩
    | .fault f => ⟨.bad (.delimited f), rs, fired⟩
    | .panic text => ⟨.panicked text, rs, fired⟩
    | .record record =>
      if record.fields.length = width then
        takeSegment width left (record.fields :: done) fired rs
      else ⟨.bad (.rowArity record.line width record.fields.length), rs, fired⟩

/-- A source over records; `records` is none once it is closed. -/
structure DelimitedSource where
  schema : Schema
  options : Options
  batchSize : Nat
  records : Option (List Reading)
  rowsRead : Nat := 0

namespace DelimitedSource

def defaultBatchSize : Nat := 8192

/-- Take the header off a stream of records; it has to be as wide as the schema. -/
def skipHeader (s : Schema) (rs : List Reading) : Except Error (List Reading) :=
  match rs with
  | [] => .ok []
  | r :: rest => match r.item with
    | .finished => .ok rs
    | .fault f => .error (.delimited f)
    | .panic text => .error (.source (.taskFailed "CSV" text))
    | .record record =>
      if record.fields.length = s.width then .ok rest
      else .error (.schema (.headerWidth record.fields.length s.width))

def ofRecords (s : Schema) (o : Options) (rs : List Reading) : Except Error DelimitedSource := do
  let rs ← if o.hasHeader then skipHeader s rs else .ok rs
  pure { schema := s, options := o, batchSize := defaultBatchSize, records := some rs }

def ofInput (s : Schema) (o : Options) (input : List Chunk) : Except Error DelimitedSource := do
  o.validate
  let delimiter ← o.delimiterByte
  ofRecords s o (Delimited.readings delimiter input)

def withBatchSize (d : DelimitedSource) (n : Nat) : DelimitedSource :=
  { d with batchSize := max n 1 }

def layout (d : DelimitedSource) : Layout := d.schema.toLayout

/-- What a read takes off the records, having reserved room for a whole batch. -/
def stretch (d : DelimitedSource) (rs : List Reading) : Stretch :=
  match Machine.within Machine.bytesMax .allocation (d.batchSize * Machine.handleBytes) with
  | .error x => ⟨.panicked x.text, rs, false⟩
  | .ok _ => takeSegment d.schema.width d.batchSize [] false rs

/-- Read the next batch. The flag tells that the caller was cancelled while records were read. -/
def readWatching (d : DelimitedSource) :
    Except Error (Option Batch) × DelimitedSource × Bool :=
  match d.records with
  | none => (.error (.source (.closed "CSV")), d, false)
  | some rs =>
    let t := d.stretch rs
    match t.segment with
    | .panicked text =>
      (.error (.source (.taskFailed "CSV" text)), { d with records := none }, t.fired)
    | .bad e => (.error e, { d with records := some t.rest }, t.fired)
    | .rows [] => (.ok none, { d with records := some t.rest }, t.fired)
    | .rows rows =>
      let d := { d with records := some t.rest, rowsRead := d.rowsRead + rows.length }
      match Delimited.batch d.options d.schema rows with
      | .ok b => (.ok (some b), d, t.fired)
      | .error e => (.error e, d, t.fired)

def read (d : DelimitedSource) : Except Error (Option Batch) × DelimitedSource :=
  let (result, d, _) := d.readWatching
  (result, d)

def close (d : DelimitedSource) : DelimitedSource := { d with records := none }

end DelimitedSource
end Tabular
