import Tabular.Calendar.Plain
import Tabular.Ndjson.Reader
import Tabular.Source.Feed

/-! # Records of JSON as tables

Values of a stream become cells of the columns of a layout. A record may lack a column, which is
then null, and may have members that are no column; a value that its column cannot hold makes its
whole batch unreadable.
-/
namespace Tabular.Ndjson

def wholePart (x : Number.Binary64) : Int :=
  let (num, den) := x.ratio
  let n : Int := (num / den : Nat)
  if x.negative then -n else n

/-- A number as an integer: as it is written, else without its fraction. -/
def int? (text : String) : Option Int :=
  (Number.Decimal.int64? text.toList).or <| do
    let x ← Number.Binary64.parse? text.toList
    let i := wholePart x
    if x.isFinite && Number.Decimal.inInt64 i then some i else none

/-- A number as a count of microseconds; what is out of range goes to the nearest end. -/
def micros? (text : String) : Option Int :=
  (Number.Decimal.int64? text.toList).or <| do
    let x ← Number.Binary64.parse? text.toList
    if x.isNaN then some 0
    else if x.isInfinite then
      some (if x.negative then Number.Decimal.int64Min else Number.Decimal.int64Max)
    else some (max Number.Decimal.int64Min (min Number.Decimal.int64Max (wholePart x)))

def member (name : String) (ms : List (String × Json)) : Json :=
  ((Json.object ms).member? name).getD .null

mutual

def cell? : ColumnType → Json → Option Cell
  | _, .null => some .null
  | .boolean, .bool b => some (.boolean b)
  | .int _, .string s => (Number.Decimal.int64? s.toList).map .int
  | .int _, .number t => (int? t).map .int
  | .float64, .string s => (Number.Binary64.parse? s.toList).map .float
  | .float64, .number t => (Number.Binary64.parse? t.toList).map .float
  | .utf8, .string s => some (.text s)
  | .timestamp _ _, .string s => (Calendar.Plain.micros? s).map .timestamp
  | .timestamp _ _, .number t => (micros? t).map .timestamp
  | .list t, .array items => (items.mapM (cell? t)).map .list
  | .struct fs, .object ms => (fieldCells? fs [] ms).map .struct
  | _, _ => none

/-- The members of an object as the cells of a structure; of fields with one name only the first
is filled. -/
def fieldCells? (fields : FieldTypes) (seen : List String) (ms : List (String × Json)) :
    Option (List Cell) :=
  match fields with
  | .nil => some []
  | .cons n t fs => do
    let c ← if seen.contains n then some Cell.null else cell? t (member n ms)
    let cs ← fieldCells? fs (n :: seen) ms
    some (c :: cs)

end

def record? : Json → Option (List (String × Json))
  | .object ms => some ms
  | _ => none

def columnCells? (rows : List (List (String × Json))) (seen : List String) :
    List Column → Option (List (List Cell))
  | [] => some []
  | c :: cs => do
    let cells ← rows.mapM fun ms =>
      if seen.contains c.name then some Cell.null else cell? c.type (member c.name ms)
    let rest ← columnCells? rows (c.name :: seen) cs
    some (cells :: rest)

def batch (layout : Layout) (values : List Json) : Except Error Batch :=
  let columns? := do columnCells? (← values.mapM record?) [] layout.columns
  match columns? with
  | none => .error (.columnar .malformedRecord)
  | some columns => match Batch.ofColumns layout (some values.length) columns with
    | .ok b => .ok b
    | .error _ => .error (.columnar .malformedRecord)

/-- Cut a list into pieces of `n`, a smaller last one and no empty one. -/
def chunks {α : Type} (n : Nat) (xs : List α) : List (List α) :=
  go xs.length xs
where
  /-- Cut off at most `fuel` pieces. -/
  go : Nat → List α → List (List α)
    | 0, _ => []
    | _ + 1, [] => []
    | fuel + 1, xs => xs.take n :: go fuel (xs.drop n)

/-- What a reader yields: the batches of the chunks up to the first that is unreadable. -/
def items (layout : Layout) : List (List Json) → List FeedItem × Option Error
  | [] => ([], none)
  | values :: rest => match batch layout values with
    | .error e => ([], some e)
    | .ok b =>
      let (is, e) := items layout rest
      (.batch b :: is, e)

/-- The feed of a stream. When the stream is not sound, the batch under way at its end is lost;
an error stays. -/
def feed (layout : Layout) (batchSize : Nat) (bytes : List UInt8) : Feed :=
  let size := max batchSize 1
  let stream := Values.ofBytes bytes
  let whole := chunks size stream.values
  let kept := if stream.sound then whole else whole.takeWhile (·.length == size)
  let (is, e) := items layout kept
  let broken := if stream.sound then none else some (.columnar .malformedRecord)
  { Feed.ofItems .ndjson layout is with last := e.or broken }

end Tabular.Ndjson
