import Tabular.Error
import Tabular.Text.Blank

/-! # Reading options

How delimited text is read: what separates fields, whether the first row names the columns,
which values are null, how timestamps are written, and how much of the text is looked at to find
the types of its columns.
-/
namespace Tabular

structure Options where
  delimiter : Option Char := none
  hasHeader : Bool := true
  nullValues : List String := []
  emptyAsNull : Bool := true
  timestampFormat : Option String := none
  maxRows : Nat := 1000
  batchSize : Nat := 100
  workers : Option Nat := none
  deriving DecidableEq, Repr, Inhabited

namespace Options

def defaultDelimiter : Char := ','

def delimiterChar (o : Options) : Char := o.delimiter.getD defaultDelimiter

/-- The delimiter as a byte; only ASCII characters are one. -/
def delimiterByte (o : Options) : Except Error UInt8 :=
  let c := o.delimiterChar
  if c.toNat < 128 then .ok (UInt8.ofNat c.toNat) else .error (.validation (.delimiter c))

/-- How many workers look at rows, given how many are available: at least one. -/
def workerCount (o : Options) (available : Nat) : Nat := max 1 (o.workers.getD available)

def validate (o : Options) : Except Error Unit := do
  let _ ← o.delimiterByte
  if o.maxRows = 0 then throw (.validation (.zero "max_rows"))
  if o.batchSize = 0 then throw (.validation (.zero "batch_size"))
  if o.workers = some 0 then throw (.validation (.zero "workers"))

def isNull (o : Options) (raw : String) : Bool :=
  o.nullValues.contains raw || (o.emptyAsNull && Text.allBlank raw)

end Options
end Tabular
