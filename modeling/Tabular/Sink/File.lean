import Tabular.Columnar.Ipc
import Tabular.Columnar.Parquet
import Tabular.Delimited.Writer
import Tabular.FileTree
import Tabular.Ndjson.Writer
import Tabular.Sink.Encoding

/-! # Sinks into files

A sink is created on a path together with its file, which is emptied if it is there already; what
the sink encodes is the content of that file. Each format has an encoder of its own.
-/
namespace Tabular

inductive FileEncoder where
  | delimited (w : Delimited.Writer)
  | lines (w : Ndjson.Writer)
  | parquet (w : Columnar.Parquet.Writer)
  | ipc (w : Columnar.Ipc.Writer)

namespace FileEncoder

def label : FileEncoder → String
  | delimited _ => "CSV"
  | lines _ => "NDJSON"
  | parquet _ => "Parquet"
  | ipc _ => "IPC"

def bytes : FileEncoder → List UInt8
  | delimited w => w.bytes
  | lines w => w.bytes
  | parquet w => w.bytes
  | ipc w => w.bytes

instance : Encoder FileEncoder where
  write e b := match e with
    | delimited w => match w.write b with
      | (.ok _, w) => (.ok (), delimited w)
      | (.error f, w) => (.error (.columnar f), delimited w)
    | lines w => (.ok (), lines (w.write b))
    | parquet w => let (r, w) := w.write b; (r, parquet w)
    | ipc w => (.ok (), ipc (w.write b))
  finish e := match e with
    | delimited w => (.ok (), delimited w)
    | lines w => (.ok (), lines w)
    | parquet w => let (r, w) := w.finish; (r, parquet w)
    | ipc w => (.ok (), ipc w.finish)

end FileEncoder

structure FileSink where
  location : Location
  sink : EncodingSink FileEncoder

namespace FileSink

/-- Create a sink. The file is created before the encoder, so it is there even when there can be
no encoder. -/
def create (t : FileTree) (p : Path) (encoder : Except Error FileEncoder) :
    Except Error FileSink × FileTree :=
  match t.create p with
  | .error f => (.error (.noted ("Failed to create " ++ p.text) (.file f)), t)
  | .ok (location, t) => match encoder with
    | .error e => (.error e, t)
    | .ok e => (.ok { location, sink := { label := e.label, encoder := e } }, t)

def delimited (t : FileTree) (p : Path) (delimiter : UInt8) : Except Error FileSink × FileTree :=
  create t p (.ok (.delimited { delimiter }))

def lines (t : FileTree) (p : Path) : Except Error FileSink × FileTree :=
  create t p (.ok (.lines {}))

def parquet (t : FileTree) (p : Path) (layout : Layout) (o : ParquetOptions) :
    Except Error FileSink × FileTree :=
  create t p ((Columnar.Parquet.Writer.ofLayout layout o).map .parquet)

def ipc (t : FileTree) (p : Path) (layout : Layout) : Except Error FileSink × FileTree :=
  create t p (.ok (.ipc { layout }))

/-- The sink of an endpoint. Delimited text is written with the delimiter its path implies. -/
def ofEndpoint (t : FileTree) (e : Endpoint) (layout : Layout) (o : ParquetOptions) :
    Except Error FileSink × FileTree :=
  match e.resolve with
  | .error err => (.error err, t)
  | .ok .csv =>
    let delimiter := e.path.delimiter?.getD Options.defaultDelimiter
    delimited t e.path (UInt8.ofNat delimiter.toNat)
  | .ok .ndjson => lines t e.path
  | .ok .parquet => parquet t e.path layout o
  | .ok .ipc => ipc t e.path layout

def write (s : FileSink) (b : Batch) : Except Error Unit × FileSink :=
  let (r, sink) := s.sink.write b
  (r, { s with sink })

def close (s : FileSink) : Except Error Unit × FileSink :=
  let (r, sink) := s.sink.close
  (r, { s with sink })

def rowsWritten (s : FileSink) : Nat := s.sink.rowsWritten

def save (s : FileSink) (t : FileTree) : FileTree :=
  t.put s.location (.file s.sink.encoder.bytes)

end FileSink
end Tabular
