import Tabular.Columnar.Container
import Tabular.Source.Feed

/-! # IPC files

An IPC file keeps batches as they were written, with the layout and the metadata it was begun
with. Names and nullability of a batch do not count, so a null in a column that must not have any
is found when the batch is read back.
-/
namespace Tabular.Columnar.Ipc

def magic : String := "ARROW1"

/-- A writer; `parts` holds what was written, the latest first. -/
structure Writer where
  layout : Layout
  parts : List (Option Part) := []
  finished : Bool := false

namespace Writer

/-- A batch as the layout sees it: its first columns, if they are of the right types. -/
def part (layout : Layout) (b : Batch) : Option Part :=
  let types := layout.columns.map Column.type
  if (b.layout.columns.map Column.type).take types.length = types then
    some ⟨b.rows, b.columns.take types.length⟩
  else none

def write (w : Writer) (b : Batch) : Writer := { w with parts := part w.layout b :: w.parts }

def finish (w : Writer) : Writer := { w with finished := true }

def bytes (w : Writer) : List UInt8 :=
  if w.finished then Container.bytes magic ⟨w.layout, w.parts.reverse⟩
  else Container.begun magic

end Writer

def item (layout : Layout) : Option Part → FeedItem
  | none => .error (.columnar .unreadable)
  | some p => match Batch.ofColumns layout (some p.rows) p.columns with
    | .ok b => .batch b
    | .error f => .error (.columnar f)

def feed (bytes : List UInt8) : Except Error Feed :=
  match Container.ofBytes? magic bytes with
  | some c => .ok (.ofItems .ipc c.layout (c.parts.map (item c.layout)))
  | none => .error (.columnar .unreadable)

end Tabular.Columnar.Ipc
