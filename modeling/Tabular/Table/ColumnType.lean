import Tabular.Text.Quoted
import Tabular.Number.Decimal

/-! # Column types

The types a column of a table can have. Tables built here hold booleans, 64-bit numbers, texts,
microsecond timestamps, and, when read from lines of JSON, nulls, lists and structures; narrower
numbers and the remaining families occur only in layouts that come from elsewhere.
-/
namespace Tabular

inductive TimeUnit where
  | second
  | millisecond
  | microsecond
  | nanosecond
  deriving DecidableEq, Repr, Inhabited

namespace TimeUnit

def name : TimeUnit → String
  | second => "Second"
  | millisecond => "Millisecond"
  | microsecond => "Microsecond"
  | nanosecond => "Nanosecond"

def all : List TimeUnit := [second, millisecond, microsecond, nanosecond]

end TimeUnit

inductive Width where
  | w8
  | w16
  | w32
  | w64
  deriving DecidableEq, Repr, Inhabited

def Width.name : Width → String
  | .w8 => "8"
  | .w16 => "16"
  | .w32 => "32"
  | .w64 => "64"

mutual

inductive ColumnType where
  | null
  | boolean
  | int (width : Width)
  | unsigned (width : Width)
  | float16
  | float32
  | float64
  | utf8
  | largeUtf8
  | timestamp (unit : TimeUnit) (zone : Option String)
  | list (item : ColumnType)
  | struct (fields : FieldTypes)
  | other (name : String)

inductive FieldTypes where
  | nil
  | cons (name : String) (type : ColumnType) (rest : FieldTypes)

end

deriving instance DecidableEq, Repr for ColumnType, FieldTypes

instance : Inhabited ColumnType := ⟨.null⟩

namespace FieldTypes

def toList : FieldTypes → List (String × ColumnType)
  | nil => []
  | cons n t r => (n, t) :: r.toList

def ofList : List (String × ColumnType) → FieldTypes
  | [] => nil
  | (n, t) :: r => cons n t (ofList r)

theorem toList_ofList (fs : List (String × ColumnType)) : (ofList fs).toList = fs := by
  induction fs with
  | nil => rfl
  | cons f r ih => simp [ofList, toList, ih]

end FieldTypes

namespace ColumnType

abbrev int64 : ColumnType := .int .w64
abbrev micros : ColumnType := .timestamp .microsecond none

/-- How a field inside a type is shown; such fields may always be null. -/
def shownField (name type : String) : String :=
  "Field \x7b name: " ++ Text.quoted name ++ ", data_type: " ++ type ++
    ", nullable: true, dict_id: 0, dict_is_ordered: false, metadata: \x7b\x7d \x7d"

mutual

def name : ColumnType → String
  | null => "Null"
  | boolean => "Boolean"
  | int w => "Int" ++ w.name
  | unsigned w => "UInt" ++ w.name
  | float16 => "Float16"
  | float32 => "Float32"
  | float64 => "Float64"
  | utf8 => "Utf8"
  | largeUtf8 => "LargeUtf8"
  | timestamp unit zone =>
    "Timestamp(" ++ unit.name ++ ", " ++ (match zone with
      | none => "None"
      | some z => "Some(" ++ Text.quoted z ++ ")") ++ ")"
  | list item => "List(" ++ shownField "item" item.name ++ ")"
  | struct fields => "Struct([" ++ ", ".intercalate (fieldNames fields) ++ "])"
  | other n => n

def fieldNames : FieldTypes → List String
  | .nil => []
  | .cons n t fs => shownField n t.name :: fieldNames fs

end

def simple : List ColumnType := [
  null, boolean, int .w8, int .w16, int .w32, int .w64, unsigned .w8, unsigned .w16,
  unsigned .w32, unsigned .w64, float16, float32, float64, utf8, largeUtf8]

def between? (front back s : List Char) : Option (List Char) :=
  if front.isPrefixOf s then
    let r := s.drop front.length
    if back.isSuffixOf r then some (r.take (r.length - back.length)) else none
  else none

def timestamp? (s : List Char) : Option ColumnType :=
  TimeUnit.all.findSome? fun unit =>
    match between? ("Timestamp(" ++ unit.name ++ ", ").toList [')'] s with
    | some ['N', 'o', 'n', 'e'] => some (timestamp unit none)
    | some zone => (between? "Some(\"".toList "\")".toList zone).map fun z =>
        timestamp unit (some (String.ofList z))
    | none => none

/-- The type of a name, with at most `depth` lists around it; a name of no family known here is
kept as it is. -/
def ofNameWithin : Nat → List Char → ColumnType
  | 0, s => other (String.ofList s)
  | depth + 1, s => match simple.find? (·.name.toList == s), timestamp? s with
    | some t, _ | none, some t => t
    | none, none => match between? "List(".toList [')'] s with
      | some item =>
        if "Field ".toList.isPrefixOf item then other (String.ofList s)
        else list (ofNameWithin depth item)
      | none => other (String.ofList s)

/-- The type of a name. A list is known by the type of its items alone, and kept as it is when
they are shown as a field. -/
def ofName (s : String) : ColumnType := ofNameWithin (s.length + 1) s.toList

end ColumnType
end Tabular
