import Tabular.Table.Batch

/-! # Batches in memory

A source over batches that are already there, all of one layout.
-/
namespace Tabular

/-- Batches still to be read, and whether the source was closed. -/
structure MemorySource where
  layout : Layout
  batches : List Batch
  closed : Bool := false

namespace MemorySource

def ofLayout (layout : Layout) (batches : List Batch) : Except Error MemorySource :=
  if batches.all (·.layout = layout) then .ok { layout, batches }
  else .error (.schema .batchMismatch)

def ofBatches (batches : List Batch) : Except Error MemorySource :=
  match batches with
  | [] => .error (.source .noBatches)
  | b :: _ => ofLayout b.layout batches

def remaining (s : MemorySource) : Nat := s.batches.length

def read (s : MemorySource) : Except Error (Option Batch) × MemorySource :=
  if s.closed then (.error (.source (.closed "memory")), s)
  else match s.batches with
    | [] => (.ok none, s)
    | b :: bs => (.ok (some b), { s with batches := bs })

def close (s : MemorySource) : MemorySource := { s with closed := true, batches := [] }

end MemorySource
end Tabular
