import Tabular.Table.Layout
import Tabular.Error

/-! # Schemas

A schema names the columns of a text and says what each of them holds. It is narrower than a
layout: `Schema.toLayout` gives every tag its column type, and `Schema.ofLayout` goes back for
the types that some tag stands for, failing at the first column of any other type.
-/
namespace Tabular

namespace Schema

structure Field where
  name : String
  tag : Tag
  nullable : Bool := false
  deriving DecidableEq, Repr, Inhabited

/-- The column type of a tag; a column of which nothing is known holds texts. -/
def Tag.columnType : Tag → ColumnType
  | .boolean => .boolean
  | .int64 => .int64
  | .float64 => .float64
  | .timestamp => .micros
  | .string | .unset => .utf8

def Tag.ofColumnType? : ColumnType → Option Tag
  | .boolean => some .boolean
  | .int _ => some .int64
  | .float16 | .float32 | .float64 => some .float64
  | .timestamp _ _ => some .timestamp
  | .utf8 | .largeUtf8 => some .string
  | _ => none

/-- A tag as a layout can express it: `unset` becomes `string`. -/
def Tag.settled : Tag → Tag
  | .unset => .string
  | t => t

theorem Tag.ofColumnType?_columnType (t : Tag) : ofColumnType? t.columnType = some t.settled := by
  cases t <;> rfl

def Field.toColumn (f : Field) : Column := ⟨f.name, f.tag.columnType, f.nullable⟩

def Field.ofColumn (c : Column) : Except Error Field :=
  match Tag.ofColumnType? c.type with
  | some t => .ok ⟨c.name, t, c.nullable⟩
  | none => .error (.schema (.unsupported c.name c.type.name))

end Schema

structure Schema where
  fields : List Schema.Field
  metadata : Metadata := .empty
  deriving DecidableEq, Repr, Inhabited

namespace Schema

def width (s : Schema) : Nat := s.fields.length

def withMetadata (s : Schema) (k v : String) : Schema :=
  { s with metadata := s.metadata.insert k v }

def field? (s : Schema) (name : String) : Option Field := s.fields.find? (·.name == name)

def toLayout (s : Schema) : Layout := ⟨s.fields.map Field.toColumn, s.metadata⟩

/-- The fields of columns, up to the first that has no tag. -/
def fieldsOf : List Column → Except Error (List Field)
  | [] => .ok []
  | c :: cs => do
    let f ← Field.ofColumn c
    let fs ← fieldsOf cs
    pure (f :: fs)

def ofLayout (l : Layout) : Except Error Schema := do
  let fields ← fieldsOf l.columns
  pure ⟨fields, l.metadata⟩

@[simp] theorem width_toLayout (s : Schema) : s.toLayout.width = s.width := by
  simp [toLayout, Layout.width, width]

end Schema
end Tabular
