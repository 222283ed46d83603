/-! # Column tags

The type of a column as far as it is known from its values. Tags form a lattice: `unset` is the
bottom, `string` the top, `int64` lies below `float64`, and any other two tags meet at `string`.
Joining is commutative, associative and idempotent, so the order in which values are seen does
not matter.
-/
namespace Tabular.Schema

inductive Tag where
  | unset
  | boolean
  | int64
  | float64
  | timestamp
  | string
  deriving DecidableEq, Repr, Inhabited

namespace Tag

def name : Tag → String
  | unset => "unset"
  | boolean => "boolean"
  | int64 => "int64"
  | float64 => "float64"
  | timestamp => "timestamp"
  | string => "string"

def ofName? : String → Option Tag
  | "unset" => some unset
  | "boolean" => some boolean
  | "int64" => some int64
  | "float64" => some float64
  | "timestamp" => some timestamp
  | "string" => some string
  | _ => none

theorem ofName?_name (t : Tag) : ofName? t.name = some t := by cases t <;> rfl

/-- The least tag above both. -/
def join : Tag → Tag → Tag
  | unset, t => t
  | t, unset => t
  | int64, float64 => float64
  | float64, int64 => float64
  | s, t => if s = t then s else string

theorem join_comm (s t : Tag) : join s t = join t s := by cases s <;> cases t <;> rfl

theorem join_assoc (s t u : Tag) : join (join s t) u = join s (join t u) := by
  cases s <;> cases t <;> cases u <;> rfl

@[simp] theorem join_self (s : Tag) : join s s = s := by cases s <;> rfl

@[simp] theorem unset_join (s : Tag) : join unset s = s := by cases s <;> rfl

@[simp] theorem join_unset (s : Tag) : join s unset = s := by cases s <;> rfl

end Tag

/-- What is known of a column: the join of the tags seen, and whether a null was. -/
structure ColumnState where
  tag : Tag := .unset
  nullable : Bool := false
  deriving DecidableEq, Repr, Inhabited

namespace ColumnState

/-- See one value more; `none` is a null. -/
def observe (s : ColumnState) : Option Tag → ColumnState
  | some t => { s with tag := s.tag.join t }
  | none => { s with nullable := true }

def merge (s t : ColumnState) : ColumnState :=
  { tag := s.tag.join t.tag, nullable := s.nullable || t.nullable }

theorem merge_comm (s t : ColumnState) : merge s t = merge t s := by
  simp [merge, Tag.join_comm s.tag t.tag, Bool.or_comm]

theorem merge_assoc (s t u : ColumnState) : merge (merge s t) u = merge s (merge t u) := by
  simp [merge, Tag.join_assoc, Bool.or_assoc]

@[simp] theorem merge_self (s : ColumnState) : merge s s = s := by
  simp [merge]

/-- Seeing a value is merging with what that value alone would have shown. -/
theorem observe_eq_merge (s : ColumnState) (o : Option Tag) :
    s.observe o = s.merge (observe {} o) := by
  cases o <;> simp [observe, merge]

end ColumnState
end Tabular.Schema
