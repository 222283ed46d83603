import Tabular.Table.ColumnType
import Tabular.Table.Metadata

/-! # Layouts

The layout of a table: its columns in order, each with a name, a type and whether nulls may
occur, and descriptive metadata.
-/
namespace Tabular

structure Column where
  name : String
  type : ColumnType
  nullable : Bool
  deriving DecidableEq, Repr, Inhabited

structure Layout where
  columns : List Column
  metadata : Metadata := .empty
  deriving DecidableEq, Repr, Inhabited

def Layout.width (l : Layout) : Nat := l.columns.length

end Tabular
