import Tabular.Config.Basic
import Tabular.Config.Document
import Tabular.Schema.Basic

/-! # Settings and schemas as documents

Writing gives every field under its name; a field that may be left out, such as an empty list of
metadata or a format that is not set, is left out. Reading takes any notation `Document` knows
and fills in what is missing.
-/
namespace Tabular

open Document

def Json.ofNat (n : Nat) : Json := .number (Number.Decimal.ofNat n)

def Json.ofOption {α : Type} (write : α → Json) : Option α → Json
  | some a => write a
  | none => .null

/-! ## Schemas -/

namespace Schema

def Field.encode (f : Field) : Json := .object [
  ("name", .string f.name), ("type", .string f.tag.name), ("nullable", .bool f.nullable)]

def encodeMetadata (m : Metadata) : Json := .object (m.entries.map fun e => (e.1, .string e.2))

def encode (s : Schema) : Json := .object (
  ("fields", .array (s.fields.map Field.encode)) ::
    if s.metadata.isEmpty then [] else [("metadata", encodeMetadata s.metadata)])

variable {δ : Type} [Document δ]

def Tag.decode? (d : δ) : Option Tag := (choice? d).bind Tag.ofName?

def Field.decode? (d : δ) : Option Field := do
  let f ← fields? ["name", "type", "nullable"] d
  let name ← f.required "name" text?
  let tag ← f.required "type" Tag.decode?
  let nullable ← f.withDefault "nullable" false flag?
  some { name, tag, nullable }

/-- Metadata from members; of a repeated name the last entry stays. -/
def decodeMetadata? (d : δ) : Option Metadata := do
  let entries ← (← members? d).mapM fun (k, v) => (text? v).map (k, ·)
  some (Metadata.ofList entries)

def decode? (d : δ) : Option Schema := do
  let f ← fields? ["fields", "metadata"] d
  let fields ← f.required "fields" (listOf Field.decode?)
  let metadata ← f.withDefault "metadata" .empty decodeMetadata?
  some { fields, metadata }

end Schema

/-! ## Options -/

namespace Options

def encode (o : Options) : Json := .object [
  ("delimiter", Json.ofOption (fun c => .string (String.singleton c)) o.delimiter),
  ("has_header", .bool o.hasHeader),
  ("null_values", .array (o.nullValues.map Json.string)),
  ("empty_as_null", .bool o.emptyAsNull),
  ("timestamp_format", Json.ofOption Json.string o.timestampFormat),
  ("max_rows", .ofNat o.maxRows),
  ("batch_size", .ofNat o.batchSize),
  ("workers", Json.ofOption Json.ofNat o.workers)]

def fieldNames : List String := [
  "delimiter", "has_header", "null_values", "empty_as_null", "timestamp_format", "max_rows",
  "batch_size", "workers"]

def decode? {δ : Type} [Document δ] (d : δ) : Option Options := do
  let f ← fields? fieldNames d
  let delimiter ← f.withDefault "delimiter" none (optional char?)
  let hasHeader ← f.withDefault "has_header" true flag?
  let nullValues ← f.withDefault "null_values" [] (listOf text?)
  let emptyAsNull ← f.withDefault "empty_as_null" true flag?
  let timestampFormat ← f.withDefault "timestamp_format" none (optional text?)
  let maxRows ← f.withDefault "max_rows" 1000 nat?
  let batchSize ← f.withDefault "batch_size" 100 nat?
  let workers ← f.withDefault "workers" none (optional nat?)
  some {
    delimiter, hasHeader, nullValues, emptyAsNull, timestampFormat, maxRows, batchSize, workers }

end Options

/-! ## Pipelines -/

namespace Transfer.Settings

def encode (s : Settings) : Json := .object [
  ("queue_capacity", .ofNat s.queueCapacity), ("progress_interval", .ofNat s.progressInterval)]

def decode? {δ : Type} [Document δ] (d : δ) : Option Settings := do
  let f ← fields? ["queue_capacity", "progress_interval"] d
  let queueCapacity ← f.withDefault "queue_capacity" 100 nat?
  let progressInterval ← f.withDefault "progress_interval" 0 nat?
  some { queueCapacity, progressInterval }

end Transfer.Settings

namespace ParquetOptions

def encode (o : ParquetOptions) : Json := .object [
  ("compression", .string o.compression.name), ("row_group_size", .ofNat o.rowGroupSize),
  ("dictionary_enabled", .bool o.dictionaryEnabled),
  ("statistics_enabled", .bool o.statisticsEnabled)]

def decode? {δ : Type} [Document δ] (d : δ) : Option ParquetOptions := do
  let f ← fields?
    ["compression", "row_group_size", "dictionary_enabled", "statistics_enabled"] d
  let compression ← f.withDefault "compression" .snappy
    fun d => (choice? d).bind Compression.ofName?
  let rowGroupSize ← f.withDefault "row_group_size" 1048576 nat?
  let dictionaryEnabled ← f.withDefault "dictionary_enabled" true flag?
  let statisticsEnabled ← f.withDefault "statistics_enabled" true flag?
  some { compression, rowGroupSize, dictionaryEnabled, statisticsEnabled }

end ParquetOptions

namespace Endpoint

def encode (e : Endpoint) : Json := .object (
  ("path", .string e.path.text) :: match e.format with
    | some f => [("format", .string f.name)]
    | none => [])

def decode? {δ : Type} [Document δ] (d : δ) : Option Endpoint := do
  let f ← fields? ["path", "format"] d
  let path ← f.required "path" text?
  let format ← f.withDefault "format" none
    (optional fun d => (choice? d).bind Format.ofName?)
  some { path := ⟨path⟩, format }

end Endpoint

namespace Config

def encode (c : Config) : Json := .object [
  ("source", c.source.encode), ("sink", c.sink.encode), ("inference", c.inference.encode),
  ("transfer", c.transfer.encode), ("parquet", c.parquet.encode)]

def decode? {δ : Type} [Document δ] (d : δ) : Option Config := do
  let f ← fields? ["source", "sink", "inference", "transfer", "parquet"] d
  let source ← f.required "source" Endpoint.decode?
  let sink ← f.required "sink" Endpoint.decode?
  let inference ← f.withDefault "inference" {} Options.decode?
  let transfer ← f.withDefault "transfer" {} Transfer.Settings.decode?
  let parquet ← f.withDefault "parquet" {} ParquetOptions.decode?
  some { source, sink, inference, transfer, parquet }

end Config
end Tabular
