import Tabular.Format
import Tabular.Schema.Options

/-! # Pipeline settings

A pipeline copies one file into another. Its settings name both ends and say how delimited text
is read, how batches are moved, and how Parquet files are written. `Config.validate` refuses
settings under which no pipeline can run.
-/
namespace Tabular

structure Transfer.Settings where
  queueCapacity : Nat := 100
  progressInterval : Nat := 0
  deriving DecidableEq, Repr, Inhabited

def Transfer.Settings.validate (s : Transfer.Settings) : Except Error Unit :=
  if s.queueCapacity = 0 then .error (.validation (.zero "queue_capacity")) else .ok ()

inductive Compression where
  | none
  | snappy
  | zstd
  | gzip
  deriving DecidableEq, Repr, Inhabited

namespace Compression

def name : Compression → String
  | none => "none"
  | snappy => "snappy"
  | zstd => "zstd"
  | gzip => "gzip"

def ofName? : String → Option Compression
  | "none" => some none
  | "snappy" => some snappy
  | "zstd" => some zstd
  | "gzip" => some gzip
  | _ => Option.none

theorem ofName?_name (c : Compression) : ofName? c.name = some c := by cases c <;> rfl

end Compression

structure ParquetOptions where
  compression : Compression := .snappy
  rowGroupSize : Nat := 1048576
  dictionaryEnabled : Bool := true
  statisticsEnabled : Bool := true
  deriving DecidableEq, Repr, Inhabited

/-- One end of a pipeline: a file, and its format where the path does not tell. -/
structure Endpoint where
  path : Path
  format : Option Format := none
  deriving DecidableEq, Repr, Inhabited

def Endpoint.resolve (e : Endpoint) : Except Error Format :=
  match e.format with
  | some f => .ok f
  | none => Format.ofPath e.path

structure Config where
  source : Endpoint
  sink : Endpoint
  inference : Options := {}
  transfer : Transfer.Settings := {}
  parquet : ParquetOptions := {}
  deriving DecidableEq, Repr, Inhabited

/-- Refuse settings no pipeline can run under. The formats of both ends come first, then the
paths, then the sections in order. -/
def Config.validate (c : Config) : Except Error Unit := do
  let _ ← c.source.resolve
  let _ ← c.sink.resolve
  if c.source.path.same c.sink.path then
    throw (.validation (.sameFile c.source.path.text))
  c.inference.validate
  c.transfer.validate
  if c.parquet.rowGroupSize = 0 then throw (.validation (.zero "parquet.row_group_size"))

/-- The options for a delimited file: a delimiter that its path implies, unless one is set. -/
def Options.forPath (o : Options) (p : Path) : Options :=
  match o.delimiter, p.delimiter? with
  | none, some d => { o with delimiter := some d }
  | _, _ => o

end Tabular
