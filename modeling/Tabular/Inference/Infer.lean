import Tabular.Inference.Pool
import Tabular.Schema.Basic

/-! # Inferring schemas

The schema of a delimited text from a sample of its rows: names from the header or made up, types
from the values seen, and a few entries of metadata about the sample. Sizes are within the limits of
the machine; `Machine.infer` is an inference whose sizes need not be.
-/
namespace Tabular.Inference

open Delimited (Chunk Reading)
open Schema (ColumnState Field)

structure Outcome where
  schema : Schema
  rowsSampled : Nat
  deriving Repr

structure Surroundings where
  processors : Nat
  clock : String

/-- The field of a column. A column in which only nulls were seen holds texts or nulls. -/
def freezeField (name : String) (s : ColumnState) : Field :=
  if s.tag = .unset then ⟨name, .string, true⟩ else ⟨name, s.tag, s.nullable⟩

def freeze (o : Options) (clock : String) (names : List String) (states : List ColumnState)
    (rows : Nat) : Outcome :=
  let schema : Schema := { fields := List.zipWith freezeField names states }
  let schema := schema.withMetadata "delimiter" (String.singleton o.delimiterChar)
  let schema := schema.withMetadata "has_header" (if o.hasHeader then "true" else "false")
  let schema := schema.withMetadata "sample_size" (Number.Decimal.ofNat rows)
  let schema := schema.withMetadata "inferred_at" clock
  { schema, rowsSampled := rows }

def madeUpName (i : Nat) : String := "col" ++ Number.Decimal.ofNat i

/-- The names of the columns, and the records left to sample, given the first record. -/
def openRecords (o : Options) (first : Reading) (record : Delimited.Record) (rest : List Reading) :
    List String × List Reading :=
  if o.hasHeader then (record.fields.map Text.strip, rest)
  else ((List.range record.fields.length).map madeUpName, first :: rest)

/-- The names of the columns and the sample of rows of a stream, under options that were found
valid. A stream without records has neither. -/
def sampleRecords (o : Options) (rs : List Reading) : Except Error (Option (List String × Sample)) :=
  match rs with
  | [] => .ok none
  | first :: rest => match first.item with
    | .finished => .ok none
    | .fault f => .error (.delimited f)
    | .panic text => .error (.taskFailed "Inference" text)
    | .record record =>
      let (names, rest) := openRecords o first record rest
      .ok (some (names, Sample.take o names.length first.fired rest))

/-- The outcome of a sample in whose rows the workers have found some states. -/
def settle (o : Options) (s : Surroundings) (names : List String) (sample : Sample)
    (states : List ColumnState) : Except Error Outcome :=
  sample.outcome.map fun rows => freeze o s.clock names states rows

def inferRecords (o : Options) (s : Surroundings) (rs : List Reading) : Except Error Outcome :=
  match sampleRecords o rs with
  | .error e => .error e
  | .ok none => .ok (freeze o s.clock [] [] 0)
  | .ok (some (names, sample)) =>
    settle o s names sample
      (Pool.observe o (o.workerCount s.processors) names.length sample.batches)

/-- Infer from a stream of records, the pool following a given schedule. There is no answer
unless the schedule is possible and everyone is then through. -/
def inferRecordsAlong (o : Options) (s : Surroundings) (moves : List Move) (rs : List Reading) :
    Option (Except Error Outcome) :=
  match sampleRecords o rs with
  | .error e => some (.error e)
  | .ok none => some (.ok (freeze o s.clock [] [] 0))
  | .ok (some (names, sample)) =>
    (Pool.observeAlong o (o.workerCount s.processors) names.length sample.batches moves).map
      (settle o s names sample)

/-- The delimiter with which an input may be read. Options are looked at first, then the
caller's cancellation. -/
def check (o : Options) (cancelled : Bool) : Except Error UInt8 := do
  o.validate
  if cancelled then throw .cancelled
  o.delimiterByte

def infer (o : Options) (s : Surroundings) (cancelled : Bool) (input : List Chunk) :
    Except Error Outcome := do
  let delimiter ← check o cancelled
  inferRecords o s (Delimited.readings delimiter input)

def inferAlong (o : Options) (s : Surroundings) (cancelled : Bool) (moves : List Move)
    (input : List Chunk) : Option (Except Error Outcome) :=
  match check o cancelled with
  | .error e => some (.error e)
  | .ok delimiter => inferRecordsAlong o s moves (Delimited.readings delimiter input)

end Tabular.Inference
