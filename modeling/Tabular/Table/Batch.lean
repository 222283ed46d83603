import Tabular.Number.Binary64
import Tabular.Table.Layout
import Tabular.Error

/-! # Batches

A batch is a run of rows kept column by column. Its columns are as many as its layout has and
all of one length; `Batch.ofColumns` is the only way to build one, and it also refuses a null in
a column that must not have any.
-/
namespace Tabular

inductive Cell where
  | null
  | boolean (b : Bool)
  | int (i : Int)
  | float (x : Number.Binary64)
  | timestamp (micros : Int)
  | text (s : String)
  | list (items : List Cell)
  | struct (fields : List Cell)
  deriving Repr, Inhabited, BEq

namespace Cell

def isNull : Cell → Bool
  | null => true
  | _ => false

/-- What a column of a type holds where its value was lost. -/
def zeroOf : ColumnType → Cell
  | .boolean => boolean false
  | .int _ | .unsigned _ => int 0
  | .float16 | .float32 | .float64 => float (.ofNat 0)
  | .utf8 | .largeUtf8 => text ""
  | .timestamp _ _ => timestamp 0
  | .list _ => list []
  | .null | .struct _ | .other _ => null

end Cell

/-- The rows of a table whose columns are given; a column that is too short gives nothing. -/
def rowsOf : Nat → List (List Cell) → List (List Cell)
  | 0, _ => []
  | n + 1, columns => columns.filterMap List.head? :: rowsOf n (columns.map List.tail)

def columnsOf : Nat → List (List Cell) → List (List Cell)
  | 0, _ => []
  | n + 1, rows => rows.filterMap List.head? :: columnsOf n (rows.map List.tail)

structure Batch where
  layout : Layout
  rows : Nat
  columns : List (List Cell)
  width_eq : columns.length = layout.width
  length_eq : ∀ c ∈ columns, c.length = rows

namespace Batch

def nullOffence? (layout : Layout) (columns : List (List Cell)) : Option String :=
  ((layout.columns.zip columns).find? fun (column, cells) =>
    !column.nullable && cells.any Cell.isNull).map (·.1.name)

/-- Put columns together. The number of rows is that of the first column unless it is given. -/
def ofColumns (layout : Layout) (rows? : Option Nat) (columns : List (List Cell)) :
    Except ColumnarFault Batch :=
  if width_eq : columns.length = layout.width then
    match rows?.or (columns.head?.map List.length) with
    | none => .error .noColumns
    | some rows => match nullOffence? layout columns with
      | some name => .error (.nullInColumn name)
      | none =>
        if length_eq : ∀ c ∈ columns, c.length = rows then
          .ok ⟨layout, rows, columns, width_eq, length_eq⟩
        else .error .unequalLengths
  else .error (.columnCount columns.length layout.width)

def rowList (b : Batch) : List (List Cell) := rowsOf b.rows b.columns

theorem layout_of_ofColumns {layout : Layout} {rows? : Option Nat} {columns : List (List Cell)}
    {b : Batch} (h : ofColumns layout rows? columns = .ok b) :
    b.layout = layout ∧ b.columns = columns := by
  unfold ofColumns at h
  split at h
  · split at h
    · simp at h
    · split at h
      · simp at h
      · split at h
        · cases h; exact ⟨rfl, rfl⟩
        · simp at h
  · simp at h

instance : Inhabited Batch := ⟨⟨⟨[], .empty⟩, 0, [], rfl, by simp⟩⟩

end Batch
end Tabular
