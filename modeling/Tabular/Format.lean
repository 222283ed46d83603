import Tabular.Path
import Tabular.Error

/-! # File formats

The four formats of a file, their names, and the format and delimiter that a path implies.
-/
namespace Tabular

inductive Format where
  | csv
  | ndjson
  | parquet
  | ipc
  deriving DecidableEq, Repr, Inhabited

namespace Format

def name : Format → String
  | csv => "csv"
  | ndjson => "ndjson"
  | parquet => "parquet"
  | ipc => "ipc"

/-- The format of one of the four names, exactly as written. -/
def ofName? : String → Option Format
  | "csv" => some csv
  | "ndjson" => some ndjson
  | "parquet" => some parquet
  | "ipc" => some ipc
  | _ => none

theorem ofName?_name (f : Format) : ofName? f.name = some f := by cases f <;> rfl

/-- The format someone asks for by a name or a common alias, in any case. -/
def parse (s : String) : Except Error Format :=
  match s.toLower with
  | "csv" | "tsv" => .ok csv
  | "json" | "jsonl" | "ndjson" => .ok ndjson
  | "parquet" => .ok parquet
  | "ipc" | "arrow" => .ok ipc
  | other => .error (.validation (.unknownFormat other))

def ofPath (p : Path) : Except Error Format :=
  match p.extension? with
  | none => .error (.validation (.noExtension p.text))
  | some e => match e.toLower with
    | "csv" | "tsv" | "txt" => .ok csv
    | "json" | "jsonl" | "ndjson" => .ok ndjson
    | "parquet" | "pq" => .ok parquet
    | "arrow" | "ipc" | "feather" => .ok ipc
    | other => .error (.validation (.unsupportedExtension other p.text))

end Format

def Path.delimiter? (p : Path) : Option Char :=
  match p.extension? with
  | some e => if e.toLower == "tsv" then some '\t' else none
  | none => none

end Tabular
