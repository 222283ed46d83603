import Tabular.Table.Batch

/-! # A sink in memory

A sink that keeps the batches written to it, in order. Their rows stay below `2 ^ 64`.
-/
namespace Tabular

/-- The batches written, the last one first, and whether the sink was closed. -/
structure MemorySink where
  written : List Batch := []
  closed : Bool := false

namespace MemorySink

def batches (s : MemorySink) : List Batch := s.written.reverse

def rows (s : MemorySink) : Nat := (s.written.map Batch.rows).foldr (· + ·) 0

def write (s : MemorySink) (b : Batch) : Except Error Unit × MemorySink :=
  if s.closed then (.error (.sink (.closed "memory")), s)
  else (.ok (), { s with written := b :: s.written })

def close (s : MemorySink) : MemorySink := { s with closed := true }

end MemorySink
end Tabular
