import Tabular.Calendar.Instant
import Tabular.Number.Binary64
import Tabular.Config.Encoding

/-! # Metrics of a transfer

How many batches and rows were read and written, how many failures were dropped after the first,
and when the transfer began and ended.
-/
namespace Tabular.Transfer

structure Metrics where
  batchesRead : Nat := 0
  rowsRead : Nat := 0
  batchesWritten : Nat := 0
  rowsWritten : Nat := 0
  suppressedErrors : Nat := 0
  startedAt : Option Calendar.Instant := none
  finishedAt : Option Calendar.Instant := none
  deriving DecidableEq, Repr, Inhabited

namespace Metrics

def durationMillis? (m : Metrics) : Option Int :=
  match m.startedAt, m.finishedAt with
  | some s, some f => some (s.millisTo f)
  | _, _ => none

/-- Rows written in a second, once the transfer ended; it counts as having taken a millisecond
at least. -/
def rowsPerSecond? (m : Metrics) : Option Number.Binary64 :=
  m.durationMillis?.map fun d =>
    ((Number.Binary64.ofNat m.rowsWritten).scale 1000).divide (.ofNat (max d 1).toNat)

def encode (m : Metrics) : Json :=
  let time := fun (t : Calendar.Instant) => Json.string (t.text "Z")
  .object [
    ("batches_read", .ofNat m.batchesRead), ("rows_read", .ofNat m.rowsRead),
    ("batches_written", .ofNat m.batchesWritten), ("rows_written", .ofNat m.rowsWritten),
    ("suppressed_errors", .ofNat m.suppressedErrors),
    ("started_at", Json.ofOption time m.startedAt),
    ("finished_at", Json.ofOption time m.finishedAt)]

end Metrics
end Tabular.Transfer
