import Tabular.Transfer.Metrics
import Tabular.Table.Batch

/-! # Runs

A run moves batches from a source to a sink. A puller reads batches and puts them into a bounded
queue; a pusher takes them out and writes them. Both watch the token of the run, which fires when
the caller cancels or when a read or a write fails, and both look at it before they do anything
else. When both have ended they are joined, and the source and then the sink are closed.

The run is a machine whose moves are labelled by `Event`: what the endpoints answer is part of
the label, and so is which worker moves. `Run.step` says which events are possible and what they
do, so every behaviour of the endpoints and every interleaving is some list of events. Looking at
the token and starting what it guards is one step. A call that a worker is inside may still
return after the token has fired, or be given up. Counts are those of runs whose totals stay below
`2 ^ 64`.
-/
namespace Tabular.Transfer

inductive Puller where
  | idle
  | reading
  | holding (b : Batch)
  | stopped
  | panicked (text : String)

inductive Pusher where
  | idle
  | holding (b : Batch)
  | writing (b : Batch)
  | stopped
  | panicked (text : String)

/-- Whether the puller has ended; the queue then has no sender any more. -/
def Puller.ended : Puller → Bool
  | .stopped | .panicked _ => true
  | _ => false

def Pusher.ended : Pusher → Bool
  | .stopped | .panicked _ => true
  | _ => false

inductive Phase where
  | working
  | closingSource
  | closingSink
  | closed
  deriving DecidableEq, Repr

abbrev Failure := Stage × Error

structure FirstError where
  slot : Option Failure := none
  suppressed : Nat := 0

def FirstError.record (errors : FirstError) (failure : Failure) : FirstError :=
  match errors.slot with
  | none => { errors with slot := some failure }
  | some _ => { errors with suppressed := errors.suppressed + 1 }

structure Run where
  capacity : Nat
  callerFired : Bool := false
  fired : Bool := false
  puller : Puller := .idle
  pusher : Pusher := .idle
  queue : List Batch := []
  errors : FirstError := {}
  closeError : Option Error := none
  phase : Phase := .working
  batchesRead : Nat := 0
  rowsRead : Nat := 0
  batchesWritten : Nat := 0
  rowsWritten : Nat := 0

inductive Event where
  | callerCancels
  | readStarts
  | readReturns (result : Except Error (Option Batch))
  | readPanics (text : String)
  | sends
  | pullerStops
  | receives
  | writeStarts
  | writeReturns (result : Except Error Unit)
  | writePanics (text : String)
  | pusherStops
  | joins
  | sourceCloses (error : Option Error)
  | sinkCloses (error : Option Error)

namespace Run

def start (capacity : Nat) (cancelled : Bool) : Run :=
  { capacity, callerFired := cancelled, fired := cancelled }

def fail (r : Run) (stage : Stage) (e : Error) : Run :=
  { r with errors := r.errors.record (stage, e), fired := true }

/-- The pusher ends; what is still queued is dropped. -/
def endPusher (r : Run) (how : Pusher) : Run := { r with pusher := how, queue := [] }

/-- Whether the puller may end now. Between reads and inside one it ends when the token has
fired; with a batch in hand also when nobody receives any more. -/
def pullerMayStop (r : Run) : Bool :=
  match r.puller with
  | .idle | .reading => r.fired
  | .holding _ => r.fired || r.pusher.ended
  | .stopped | .panicked _ => false

/-- Whether the pusher may end now: the token has fired, or the queue is empty for good. -/
def pusherMayStop (r : Run) : Bool :=
  match r.pusher with
  | .idle => r.fired || (r.queue.isEmpty && r.puller.ended)
  | .holding _ | .writing _ => r.fired
  | .stopped | .panicked _ => false

def pullerPanic : Puller → List Failure
  | .panicked text => [(.pull, .taskFailed "Puller" text)]
  | _ => []

def pusherPanic : Pusher → List Failure
  | .panicked text => [(.push, .taskFailed "Pusher" text)]
  | _ => []

/-- The phase after joining: an endpoint whose worker panicked is lost and not closed. -/
def phaseAfterPuller (r : Run) : Phase :=
  match r.pusher with
  | .panicked _ => .closed
  | _ => .closingSink

@[inherit_doc phaseAfterPuller] def phaseAfterJoin (r : Run) : Phase :=
  match r.puller with
  | .panicked _ => r.phaseAfterPuller
  | _ => .closingSource

def pull (r : Run) : Event → Option Run
  | .readStarts => match r.puller with
    | .idle => if r.fired then none else some { r with puller := .reading }
    | _ => none
  | .readReturns result => match r.puller, result with
    | .reading, .ok (some b) => some { r with
        puller := .holding b, batchesRead := r.batchesRead + 1, rowsRead := r.rowsRead + b.rows }
    | .reading, .ok none => some { r with puller := .stopped }
    | .reading, .error e => some { r.fail .pull e with puller := .stopped }
    | _, _ => none
  | .readPanics text => match r.puller with
    | .reading => some { r with puller := .panicked text }
    | _ => none
  | .sends => match r.puller with
    | .holding b =>
      if !r.fired && !r.pusher.ended && r.queue.length < r.capacity then
        some { r with puller := .idle, queue := r.queue ++ [b] }
      else none
    | _ => none
  | .pullerStops => if r.pullerMayStop then some { r with puller := .stopped } else none
  | _ => none

def push (r : Run) : Event → Option Run
  | .receives => match r.pusher, r.queue with
    | .idle, b :: bs =>
      if r.fired then none else some { r with pusher := .holding b, queue := bs }
    | _, _ => none
  | .writeStarts => match r.pusher with
    | .holding b => if r.fired then none else some { r with pusher := .writing b }
    | _ => none
  | .writeReturns result => match r.pusher, result with
    | .writing b, .ok _ => some { r with
        pusher := .idle, batchesWritten := r.batchesWritten + 1
        rowsWritten := r.rowsWritten + b.rows }
    | .writing _, .error e => some ((r.fail .push e).endPusher .stopped)
    | _, _ => none
  | .writePanics text => match r.pusher with
    | .writing _ => some (r.endPusher (.panicked text))
    | _ => none
  | .pusherStops => if r.pusherMayStop then some (r.endPusher .stopped) else none
  | _ => none

def wind (r : Run) : Event → Option Run
  | .joins =>
    if r.phase = .working && r.puller.ended && r.pusher.ended then
      some { r with
        errors := (pullerPanic r.puller ++ pusherPanic r.pusher).foldl FirstError.record r.errors
        phase := r.phaseAfterJoin }
    else none
  | .sourceCloses e =>
    if r.phase = .closingSource then
      some { r with closeError := e, phase := r.phaseAfterPuller }
    else none
  | .sinkCloses e =>
    if r.phase = .closingSink then
      some { r with closeError := r.closeError.or e, phase := .closed }
    else none
  | _ => none

def step (r : Run) (e : Event) : Option Run :=
  match e with
  | .callerCancels => some { r with callerFired := true, fired := true }
  | .readStarts | .readReturns _ | .readPanics _ | .sends | .pullerStops => r.pull e
  | .receives | .writeStarts | .writeReturns _ | .writePanics _ | .pusherStops => r.push e
  | .joins | .sourceCloses _ | .sinkCloses _ => r.wind e

def steps (r : Run) (es : List Event) : Option Run := es.foldlM step r

/-- What a run comes to: the first failure recorded, else the cancellation of the caller, else
the first error on closing. -/
def result (r : Run) : Except Error Unit :=
  match r.errors.slot with
  | some (stage, e) => .error (.worker stage e)
  | none =>
    if r.callerFired then .error .cancelled
    else match r.closeError with
      | some e => .error e
      | none => .ok ()

/-- The metrics of a run that began and ended at given times. The counts of a worker that
panicked are lost with it. -/
def metrics (r : Run) (startedAt finishedAt : Calendar.Instant) : Metrics :=
  let pulled := match r.puller with
    | .panicked _ => (0, 0)
    | _ => (r.batchesRead, r.rowsRead)
  let pushed := match r.pusher with
    | .panicked _ => (0, 0)
    | _ => (r.batchesWritten, r.rowsWritten)
  { batchesRead := pulled.1, rowsRead := pulled.2, batchesWritten := pushed.1
    rowsWritten := pushed.2, suppressedErrors := r.errors.suppressed
    startedAt := some startedAt, finishedAt := some finishedAt }

/-- The state a result leads to. A cancellation counts as one only when it is not that of a
worker. -/
def stateOf : Except Error Unit → State
  | .ok _ => .completed
  | .error .cancelled => .cancelled
  | .error _ => .failed

end Run
end Tabular.Transfer
