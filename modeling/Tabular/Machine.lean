import Tabular.Inference.Infer
import Tabular.Machine.Size
import Tabular.Transfer.Engine

/-! # Inferences and starts on a machine

An inference meets the limits of sizes once it has a first record, and a start when the engine has
already given up its endpoints; these are then gone without having been closed. `Inference.infer`
and `Engine.start` are what both come to within the limits.
-/
namespace Tabular.Machine

open Transfer
open Delimited (Chunk Reading)

/-- What an inference reserves for a stream that begins with a record: the places of the queue to
its workers, then the room for a batch. -/
def reserve (o : Options) (processors : Nat) : List Reading → Except Excess Unit
  | ⟨.record _, _⟩ :: _ => do
    let _ ← within wordMax .product (o.workerCount processors * 2)
    let _ ← within bytesMax .allocation (o.batchSize * handleBytes)
  | _ => .ok ()

/-- An inference that panics where it goes beyond a limit. -/
def infer (o : Options) (s : Inference.Surroundings) (cancelled : Bool) (input : List Chunk) :
    Except Excess (Except Error Inference.Outcome) :=
  match Inference.check o cancelled with
  | .error e => .ok (.error e)
  | .ok delimiter =>
    let rs := Delimited.readings delimiter input
    (reserve o s.processors rs).map fun _ => Inference.inferRecords o s rs

inductive Start (σ κ : Type) where
  | ended (s : Started σ κ)
  | panicked (x : Excess) (e : Engine σ κ)

namespace Start
variable {σ κ : Type}

def engine : Start σ κ → Engine σ κ
  | ended s => s.engine
  | panicked _ e => e

end Start

variable {σ κ : Type} [Pullable σ] [Pushable κ]

/-- A start that panics where its queue goes beyond the limit. -/
def start (e : Engine σ κ) (cancelled : Bool) (startedAt finishedAt : Calendar.Instant) :
    Start σ κ :=
  match e.check, within placesMax .places e.settings.queueCapacity with
  | .ok _, .error x => .panicked x { e with
      source := none, sink := none, state := .running, metrics := { startedAt := some startedAt } }
  | _, _ => .ended (e.start cancelled startedAt finishedAt)

end Tabular.Machine
