import Tabular.Inference.Sampling
import Tabular.Delimited.Value

/-! # Worker pool

Batches of rows go from one dispatcher to several workers over a bounded queue. Each worker folds
the rows it receives into column states of its own, and the states are merged when all workers
have left. `Pool.step` says which moves are possible at a moment and what they do; a schedule is a
list of moves. Since column states form a lattice, the merged states do not depend on the schedule:
they are what one look at all rows in order would give, `observeRows`.
-/
namespace Tabular.Inference

open Schema (ColumnState)

/-- See one row. A column for which it has no value is left as it was. -/
def observeRow (o : Options) : List ColumnState → Row → List ColumnState
  | s :: states, raw :: row => s.observe (Delimited.detect o raw) :: observeRow o states row
  | states, _ => states

def observeRows (o : Options) (states : List ColumnState) (rows : List Row) : List ColumnState :=
  rows.foldl (observeRow o) states

def mergeStates (s t : List ColumnState) : List ColumnState := List.zipWith ColumnState.merge s t

structure Worker where
  states : List ColumnState
  left : Bool := false

structure Pool where
  waiting : List (List Row)
  queue : List (List Row) := []
  capacity : Nat
  closed : Bool := false
  workers : List Worker

inductive Move where
  | send
  | close
  | receive (worker : Nat)
  | leave (worker : Nat)
  deriving DecidableEq, Repr

namespace Pool

/-- A pool of `count` workers for columns `width` wide; the queue holds two batches a worker. There
are fewer than `2 ^ 63` workers, or this would be no word; see `Machine.reserve`. -/
def start (count width : Nat) (batches : List (List Row)) : Pool :=
  { waiting := batches, capacity := 2 * count
    workers := List.replicate count ⟨List.replicate width {}, false⟩ }

def step (o : Options) (p : Pool) : Move → Option Pool
  | .send => match p.waiting with
    | b :: bs =>
      if p.queue.length < p.capacity then some { p with waiting := bs, queue := p.queue ++ [b] }
      else none
    | [] => none
  | .close =>
    if p.waiting.isEmpty && !p.closed then some { p with closed := true } else none
  | .receive i => match p.workers[i]?, p.queue with
    | some w, b :: bs =>
      if w.left then none
      else
        let w := { w with states := observeRows o w.states b }
        some { p with queue := bs, workers := p.workers.set i w }
    | _, _ => none
  | .leave i => match p.workers[i]?, p.queue with
    | some w, [] =>
      if p.closed && !w.left then
        some { p with workers := p.workers.set i { w with left := true } }
      else none
    | _, _ => none

def run (o : Options) (p : Pool) (moves : List Move) : Option Pool := moves.foldlM (step o) p

def finished (p : Pool) : Bool := p.closed && p.workers.all Worker.left

def merged (width : Nat) (p : Pool) : List ColumnState :=
  p.workers.foldl (fun s w => mergeStates s w.states) (List.replicate width {})

/-- The schedule that hands each batch to the next worker in turn. -/
def roundRobin (count batches : Nat) : List Move :=
  (List.range batches).flatMap (fun i => [.send, .receive (i % count)]) ++
    .close :: (List.range count).map .leave

/-- What a pool finds in all batches under a schedule, if everyone is then through. -/
def observeAlong (o : Options) (count width : Nat) (batches : List (List Row))
    (moves : List Move) : Option (List ColumnState) :=
  match (start count width batches).run o moves with
  | some p => if p.finished then some (p.merged width) else none
  | none => none

def observe (o : Options) (count width : Nat) (batches : List (List Row)) : List ColumnState :=
  (observeAlong o count width batches (roundRobin count batches.length)).getD []

end Pool
end Tabular.Inference
