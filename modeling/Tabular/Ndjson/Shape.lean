import Tabular.Json.Reader
import Tabular.Number.Binary64
import Tabular.Schema.Basic
import Tabular.Text.Blank
import Tabular.Text.Utf8

/-! # Shapes of JSON records

The columns of a stream of records are found by joining the shapes of the first of them. A value
of one kind joined with a list of such values is a list, tags are joined as elsewhere, and a
record never joins with anything but a record.
-/
namespace Tabular.Ndjson

mutual

inductive Shape where
  | unknown
  | scalar (tag : Schema.Tag)
  | list (item : Shape)
  | record (members : Members)

/-- The members of a record, each with a shape, in the order in which they were first met. -/
inductive Members where
  | nil
  | cons (name : String) (shape : Shape) (rest : Members)

end

deriving instance DecidableEq, Repr for Shape, Members

instance : Inhabited Shape := ⟨.unknown⟩

namespace Members

def find? (name : String) : Members → Option Shape
  | nil => none
  | cons n s r => if n = name then some s else r.find? name

def snoc (name : String) (shape : Shape) : Members → Members
  | nil => cons name shape nil
  | cons n s r => cons n s (r.snoc name shape)

def append (ms : Members) : Members → Members
  | nil => ms
  | cons n s r => match ms.find? n with
    | some _ => ms.append r
    | none => (ms.snoc n s).append r

end Members

namespace Shape

def addScalar (tag : Schema.Tag) : Shape → Option Shape
  | unknown => some (scalar tag)
  | scalar t => some (scalar (t.join tag))
  | list s => (addScalar tag s).map list
  | record _ => none

mutual

def join : Shape → Shape → Option Shape
  | unknown, t => some t
  | list s, list t => (join s t).map list
  | record ms, record ns => (joinMembers ms ns).map fun ms => record (ms.append ns)
  | s, unknown => some s
  | s, scalar tag => s.addScalar tag
  | scalar tag, t => t.addScalar tag
  | _, _ => none

def joinMembers : Members → Members → Option Members
  | .nil, _ => some .nil
  | .cons n s r, ns => do
    let s ← match ns.find? n with
      | some t => join s t
      | none => some s
    let r ← joinMembers r ns
    some (.cons n s r)

end

def joinAll (start : Shape) (shapes : List Shape) : Option Shape := shapes.foldlM join start

mutual

def columnType : Shape → ColumnType
  | unknown => .null
  | scalar tag => tag.columnType
  | list s => .list s.columnType
  | record ms => .struct (fieldTypes ms)

def fieldTypes : Members → FieldTypes
  | .nil => .nil
  | .cons n s r => .cons n s.columnType (fieldTypes r)

end

end Shape

/-- The columns of records with such members; any of them may be missing. -/
def Members.columns : Members → List Column
  | nil => []
  | cons n s r => ⟨n, s.columnType, true⟩ :: r.columns

/-! ## Shapes of values -/

/-- The tag of a number: an integer if it is written as one and fits 64 bits; a negative zero is
none. -/
def numberTag (text : String) : Schema.Tag :=
  match Number.Decimal.int64? text.toList with
  | some i => if i = 0 && text.toList.head? == some '-' then .float64 else .int64
  | none => .float64

def isFiniteNumber (text : String) : Bool :=
  (Number.Binary64.parse? text.toList).any Number.Binary64.isFinite

mutual

def isFinite : Json → Bool
  | .number text => isFiniteNumber text
  | .array items => itemsFinite items
  | .object ms => membersFinite ms
  | _ => true

def itemsFinite : List Json → Bool
  | [] => true
  | v :: vs => isFinite v && itemsFinite vs

def membersFinite : List (String × Json) → Bool
  | [] => true
  | (_, v) :: ms => isFinite v && membersFinite ms

end

/-- The kind of an array, which its first item decides. -/
inductive ArrayKind where
  | empty
  | scalars
  | arrays
  | objects
  deriving DecidableEq, Repr

def ArrayKind.of : List Json → ArrayKind
  | [] => empty
  | .array _ :: _ => arrays
  | .object _ :: _ => objects
  | _ => scalars

def ArrayKind.admits : ArrayKind → Json → Bool
  | arrays, .array _ => true
  | objects, .object _ => true
  | scalars, .array _ => false
  | scalars, .object _ => false
  | scalars, _ => true
  | _, _ => false

/-- What an array of a kind is known to hold before its items are looked at. -/
def ArrayKind.start : ArrayKind → Shape
  | scalars => .scalar .unset
  | _ => .unknown

/-- Put a member where its name belongs; a later one of the same name replaces it. -/
def insertMember (name : String) (s : Shape) : Members → Members
  | .nil => .cons name s .nil
  | .cons n t r =>
    if name < n then .cons name s (.cons n t r)
    else if name = n then .cons n s r
    else .cons n t (insertMember name s r)

mutual

def shapeOf : Json → Option Shape
  | .null => some .unknown
  | .bool _ => some (.scalar .boolean)
  | .number text => some (.scalar (numberTag text))
  | .string _ => some (.scalar .string)
  | .array items =>
    let kind := ArrayKind.of items
    if items.all kind.admits then do
      let shapes ← shapesOf items
      (Shape.joinAll kind.start shapes).map .list
    else none
  | .object ms => (membersOf ms).map .record

def shapesOf : List Json → Option (List Shape)
  | [] => some []
  | v :: vs => do
    let s ← shapeOf v
    let ss ← shapesOf vs
    some (s :: ss)

def membersOf : List (String × Json) → Option Members
  | [] => some .nil
  | (n, v) :: ms => do
    let r ← membersOf ms
    if (r.find? n).isSome then some r
    else
      let s ← shapeOf v
      some (insertMember n s r)

end

def sampleSize : Nat := 1000

def splitLines (line : List UInt8) : List UInt8 → List (List UInt8)
  | [] => if line.isEmpty then [] else [line.reverse]
  | b :: r => if b == 10 then line.reverse :: splitLines [] r else splitLines (b :: line) r

/-- Join the shapes of the records on lines, up to `left` of them. A line holds one record or
nothing. -/
def joinLines : Nat → Shape → List (List UInt8) → Option Shape
  | _, s, [] => some s
  | 0, s, _ => some s
  | left + 1, s, line :: lines => do
    let text := Text.strip (← Text.Utf8.decode? line)
    if text.isEmpty then joinLines (left + 1) s lines
    else
      match ← Json.parse? text.toList with
      | .object ms =>
        if membersFinite ms then joinLines left (← s.join (.record (← membersOf ms))) lines
        else none
      | _ => none

def columns? (bytes : List UInt8) : Option (List Column) :=
  match joinLines sampleSize (.record .nil) (splitLines [] bytes) with
  | some (.record ms) => some ms.columns
  | _ => none

end Tabular.Ndjson
