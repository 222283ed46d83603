import Tabular.Columnar.Ipc
import Tabular.Columnar.Parquet
import Tabular.FileTree
import Tabular.Inference.Infer
import Tabular.Ndjson.Shape
import Tabular.Ndjson.Table
import Tabular.Source.Basic

/-! # Sources from files

A source is opened on a path. Delimited text has no types of its own, so its schema is inferred
first. Lines of JSON are looked at from the beginning too, unless a layout is given; the other
formats carry their layout with them.

An open source reads on from its file. Should the file be emptied then, the source goes on with
what it has already taken in: `Source.afterEmptying` says what that is.
-/
namespace Tabular

open Delimited (Chunk Reading)

/-- Rows in a batch of a source that does not keep the batches of its file. -/
def Feed.defaultBatchSize : Nat := 8192

def Entry.chunks : Entry → List Chunk
  | .directory => [.error .isDirectory]
  | .file bytes => [.bytes bytes]

namespace Inference

def inferPath (t : FileTree) (o : Options) (s : Surroundings) (cancelled : Bool) (p : Path) :
    Except Error Outcome := do
  infer o s cancelled (← t.openEntry p).chunks

end Inference

namespace DelimitedSource

def ofPath (t : FileTree) (s : Schema) (o : Options) (p : Path) : Except Error DelimitedSource := do
  ofInput s o (← t.openEntry p).chunks

def blockSize : Nat := 8192

/-- The blocks taken in before the first record is complete. -/
def blocksForHeader (delimiter : UInt8) : Nat → Delimited.Scan → List UInt8 → List UInt8
  | 0, _, _ => []
  | fuel + 1, s, bytes =>
    let block := bytes.take blockSize
    if block.isEmpty then []
    else
      let (found, s, _) := Delimited.scanBytes delimiter s false block
      if found.isEmpty then block ++ blocksForHeader delimiter fuel s (bytes.drop blockSize)
      else block

/-- The source when its file is emptied before anything but the header was read. -/
def afterEmptying (d : DelimitedSource) (bytes : List UInt8) : DelimitedSource :=
  let delimiter := UInt8.ofNat d.options.delimiterChar.toNat
  let kept :=
    if d.options.hasHeader then blocksForHeader delimiter (bytes.length + 1) {} bytes else []
  let records := Delimited.readings delimiter [.bytes kept]
  { d with records := some (if d.options.hasHeader then records.drop 1 else records) }

end DelimitedSource

namespace Feed

/-- The bytes of an opened file, for a reader that looks at them while it is opened. -/
def contentOf (fault : Error) : Entry → Except Error (List UInt8)
  | .directory => .error fault
  | .file bytes => .ok bytes

/-- Open lines of JSON. Without a layout one is found from the first records; with one, the file
is first looked at when it is read. -/
def ndjsonOfPath (t : FileTree) (layout? : Option Layout) (batchSize : Nat) (p : Path) :
    Except Error Feed := do
  let entry ← t.openEntry p
  match layout? with
  | some layout => match entry with
    | .file bytes => return Ndjson.feed layout batchSize bytes
    | .directory => return { ofItems .ndjson layout [] with last := some (.columnar .unreadable) }
  | none =>
    let bytes ← contentOf (.columnar .unreadable) entry
    match Ndjson.columns? bytes with
    | some columns => return Ndjson.feed { columns } batchSize bytes
    | none => throw (.columnar .malformedRecord)

def parquetOfPath (t : FileTree) (batchSize : Nat) (p : Path) : Except Error Feed := do
  Columnar.Parquet.feed batchSize (← contentOf .parquet (← t.openEntry p))

def ipcOfPath (t : FileTree) (p : Path) : Except Error Feed := do
  Columnar.Ipc.feed (← contentOf (.columnar .unreadable) (← t.openEntry p))

/-- The feed when its file is emptied before anything was read: lines of JSON are at their end,
and what a columnar file lists can no longer be read. -/
def afterEmptying (f : Feed) : Feed :=
  match f.format, f.items with
  | .ndjson, some _ => { f with items := some [], last := none }
  | _, some is =>
    { f with items := some (is.map fun _ => .error (.columnar .unreadable)) }
  | _, none => f

end Feed

namespace Source

def ofEndpoint (t : FileTree) (e : Endpoint) (o : Options) (s : Inference.Surroundings)
    (cancelled : Bool) : Except Error Source := do
  match ← e.resolve with
  | .csv =>
    let o := o.forPath e.path
    let outcome ← Inference.inferPath t o s cancelled e.path
    return .delimited (← DelimitedSource.ofPath t outcome.schema o e.path)
  | .ndjson => return .feed (← Feed.ndjsonOfPath t none Feed.defaultBatchSize e.path)
  | .parquet => return .feed (← Feed.parquetOfPath t Feed.defaultBatchSize e.path)
  | .ipc => return .feed (← Feed.ipcOfPath t e.path)

/-- The source when its file, which held these bytes, is emptied before a batch was read. -/
def afterEmptying (bytes : List UInt8) : Source → Source
  | delimited d => delimited (d.afterEmptying bytes)
  | feed f => feed f.afterEmptying
  | memory m => memory m

end Source
end Tabular
