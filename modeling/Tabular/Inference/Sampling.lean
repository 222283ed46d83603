import Tabular.Delimited.Record
import Tabular.Schema.Options

/-! # Sampling rows

The rows that inference looks at: the first ones, up to a cap, each as wide as the first record.
They are handed out in batches, all of one size but for a smaller last one. The caller's
cancellation is looked at only when a batch is about to be handed out; a bad record ends sampling
at once, and the rows before it that fill no batch are then not handed out.
-/
namespace Tabular.Inference

open Delimited (Item Reading)

abbrev Row := List String

/-- What sampling comes to: the batches handed out, and the number of rows or an error. -/
structure Sample where
  batches : List (List Row)
  outcome : Except Error Nat

namespace Sample

/-- Hand out a batch before what follows, unless the caller was cancelled. -/
def handOut (fired : Bool) (batch : List Row) (rest : Sample) : Sample :=
  if fired then ⟨[], .error .cancelled⟩ else { rest with batches := batch :: rest.batches }

/-- The end of sampling after `count` rows: what is left of a batch is handed out. -/
def finish (fired : Bool) (pending : List Row) (count : Nat) : Sample :=
  if pending.isEmpty then ⟨[], .ok count⟩ else handOut fired pending.reverse ⟨[], .ok count⟩

/-- Sample `left` more rows. `pending` is the batch under way, in reverse, and `room` the number
of rows that fill it. -/
def takeFrom (width batchSize : Nat) :
    Nat → List Row → Nat → Nat → Bool → List Reading → Sample
  | 0, pending, _, count, fired, _ => finish fired pending count
  | _ + 1, pending, _, count, fired, [] => finish fired pending count
  | left + 1, pending, room, count, fired, r :: rs =>
    let fired := fired || r.fired
    match r.item with
    | .finished => finish fired pending count
    | .fault f => ⟨[], .error (.delimited f)⟩
    | .panic text => ⟨[], .error (.taskFailed "Inference" text)⟩
    | .record record =>
      if record.fields.length = width then
        let pending := record.fields :: pending
        if room ≤ 1 then
          handOut fired pending.reverse
            (takeFrom width batchSize left [] batchSize (count + 1) fired rs)
        else takeFrom width batchSize left pending (room - 1) (count + 1) fired rs
      else ⟨[], .error (.rowArity record.line width record.fields.length)⟩

def take (o : Options) (width : Nat) (fired : Bool) (rs : List Reading) : Sample :=
  takeFrom width o.batchSize o.maxRows [] o.batchSize 0 fired rs

end Sample
end Tabular.Inference
