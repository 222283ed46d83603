import Tabular.Text.Quoted
import Tabular.Number.Decimal
import Tabular.Schema.Tag
import Tabular.Table.ColumnType
import Tabular.Transfer.State

/-! # Errors

Each way to fail is a constructor that says what went wrong; the wording is given once, by
`Error.message`. A failure of a transfer worker wraps the error of its endpoint, and a note put
in front of an error keeps that error below it.
-/
namespace Tabular

def countText (n : Nat) : String := Number.Decimal.ofNat n

inductive Invalid where
  | noExtension (path : String)
  | unsupportedExtension (extension path : String)
  | unknownFormat (name : String)
  | delimiter (c : Char)
  | zero (setting : String)
  | sameFile (path : String)
  | notIdle (state : Transfer.State)
  | noEndpoints
  | missingPaths
  | described (text : String)
  deriving DecidableEq, Repr

inductive FileFault where
  | notFound
  | notDirectory
  | isDirectory
  | nameTooLong
  | nulInName
  | notUtf8
  | described (text : String)
  deriving DecidableEq, Repr

/-- Why delimited text cannot be read: the file failed, or the bytes of a field are no text. The
second says where its record began and after how many sound bytes the field went wrong. -/
inductive DelimitedFault where
  | file (fault : FileFault)
  | notUtf8 (record line field byte index : Nat)
  | described (text : String)
  deriving DecidableEq, Repr

inductive SourceFault where
  | closed (source : String)
  | noBatches
  | taskFailed (reader : String) (text : String)
  | described (text : String)
  deriving DecidableEq, Repr

inductive SinkFault where
  | closed (sink : String)
  | described (text : String)
  deriving DecidableEq, Repr

/-- Why columns do not make a batch, or bytes not a table. -/
inductive ColumnarFault where
  | nullInColumn (column : String)
  | unequalLengths
  | noColumns
  | columnCount (found expected : Nat)
  | described (text : String)
  | nestedColumn (column : String)
  | unevenRecord (found expected : Nat)
  | timestampRange (micros : Int)
  | malformedRecord
  | unreadable
  deriving DecidableEq, Repr

inductive SchemaFault where
  | unsupported (column : String) (type : String)
  | headerWidth (found expected : Nat)
  | noTimestampFormat (column : String)
  | unreadable (column raw : String) (tag : Schema.Tag)
  | batchMismatch
  | described (text : String)
  deriving DecidableEq, Repr

inductive Error where
  | validation (cause : Invalid)
  | yaml
  | json
  | file (fault : FileFault)
  | fileNotFound (path : String)
  | delimited (fault : DelimitedFault)
  | source (fault : SourceFault)
  | sink (fault : SinkFault)
  | columnar (fault : ColumnarFault)
  | parquet
  | schema (fault : SchemaFault)
  | rowArity (line expected found : Nat)
  | cancelled
  | worker (stage : Transfer.Stage) (cause : Error)
  | taskFailed (task : String) (text : String)
  | noted (note : String) (cause : Error)
  | foreign (text : String)
  | described (text : String)
  deriving DecidableEq, Repr, Inhabited

namespace Invalid

def message : Invalid → String
  | noExtension path => "Cannot detect format of '" ++ path ++ "': no file extension"
  | unsupportedExtension e path => "Unsupported file extension '." ++ e ++ "' for '" ++ path ++ "'"
  | unknownFormat n => "Unknown data format: " ++ n
  | delimiter c => "Delimiter must be a single ASCII character, got " ++ Text.quotedChar c
  | zero setting => setting ++ " must be positive"
  | sameFile path => "Source and sink are the same file: " ++ path
  | notIdle s => "Transfer engine cannot start from state '" ++ s.name ++ "'"
  | noEndpoints => "Transfer engine has no source or sink"
  | missingPaths => "convert needs INPUT and OUTPUT, or --config"
  | described t => t

end Invalid

namespace FileFault

def message : FileFault → String
  | notFound => "No such file or directory (os error 2)"
  | notDirectory => "Not a directory (os error 20)"
  | isDirectory => "Is a directory (os error 21)"
  | nameTooLong => "File name too long (os error 36)"
  | nulInName => "file name contained an unexpected NUL byte"
  | notUtf8 => "stream did not contain valid UTF-8"
  | described t => t

end FileFault

def panicMessage (text : String) : String :=
  "task <id> panicked with message " ++ Text.quoted text

namespace DelimitedFault

def message : DelimitedFault → String
  | file f => f.message
  | notUtf8 record line field byte index =>
    "CSV parse error: record " ++ countText record ++ " (line " ++ countText line ++ ", field: " ++
      countText field ++ ", byte: " ++ countText byte ++ "): invalid utf-8: invalid UTF-8 in field " ++
      countText field ++ " near byte index " ++ countText index
  | described t => t

end DelimitedFault

namespace SourceFault

def message : SourceFault → String
  | closed s => "Read from closed " ++ s ++ " source"
  | noBatches => "No batches to read"
  | taskFailed reader text => reader ++ " reader task failed: " ++ panicMessage text
  | described t => t

end SourceFault

namespace SinkFault

def message : SinkFault → String
  | closed s => "Write to closed " ++ s ++ " sink"
  | described t => t

end SinkFault

namespace ColumnarFault

def argument? : ColumnarFault → Option String
  | nullInColumn c =>
    some ("Column '" ++ c ++ "' is declared as non-nullable but contains null values")
  | unequalLengths => some "all columns in a record batch must have the same length"
  | noColumns => some "must either specify a row count or at least one column"
  | columnCount found expected =>
    some ("number of columns(" ++ countText found ++ ") must match number of fields(" ++
      countText expected ++ ") in schema")
  | described t => some t
  | nestedColumn _ | unevenRecord .. | timestampRange _ | malformedRecord | unreadable => none

def message (f : ColumnarFault) : String :=
  match f with
  | nestedColumn c => "Csv error: column '" ++ c ++ "' is nested"
  | unevenRecord found expected =>
    "Csv error: record has " ++ countText found ++ " fields, the first has " ++
      countText expected
  | timestampRange t => "Csv error: no date for timestamp " ++ Number.Decimal.ofInt t
  | malformedRecord => "Json error: malformed record"
  | unreadable => "unreadable content"
  | f => "Invalid argument error: " ++ f.argument?.getD ""

end ColumnarFault

namespace SchemaFault

def message : SchemaFault → String
  | unsupported c t => "Column '" ++ c ++ "' has unsupported type " ++ t
  | headerWidth found expected =>
    "Header has " ++ countText found ++ " columns, schema has " ++ countText expected
  | noTimestampFormat c =>
    "Column '" ++ c ++ "' is a timestamp but no timestamp format is configured"
  | unreadable c raw tag =>
    "Column '" ++ c ++ "': cannot read " ++ Text.quoted raw ++ " as " ++ tag.name
  | batchMismatch => "Batch schema does not match source schema"
  | described t => t

end SchemaFault

namespace Error

def message : Error → String
  | validation c => "Validation error: " ++ c.message
  | yaml => "Failed to parse YAML"
  | json => "Failed to parse JSON"
  | file f => "IO error: " ++ f.message
  | fileNotFound path => "File not found: " ++ path
  | delimited f => "CSV error: " ++ f.message
  | source f => "Source error: " ++ f.message
  | sink f => "Sink error: " ++ f.message
  | columnar f => "Arrow error: " ++ f.message
  | parquet => "Parquet error"
  | schema f => "Schema error: " ++ f.message
  | rowArity line expected found =>
    "Row " ++ countText line ++ " has " ++ countText found ++ " columns, expected " ++
      countText expected
  | cancelled => "Operation cancelled"
  | worker stage cause => "Transfer failed in " ++ stage.name ++ ": " ++ cause.message
  | taskFailed task text => task ++ " task failed: " ++ panicMessage text
  | noted note cause => note ++ ": " ++ cause.message
  | foreign t => t
  | described t => t

/-- Whether an error is a cancellation, or wraps one that a worker met. -/
def isCancelled : Error → Bool
  | cancelled => true
  | worker _ cause => cause.isCancelled
  | _ => false

def isValidation : Error → Bool
  | validation _ => true
  | _ => false

def stage? : Error → Option Transfer.Stage
  | worker s _ => some s
  | _ => none

end Error
end Tabular
