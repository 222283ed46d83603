import Tabular.Transfer.Run
import Tabular.Transfer.Endpoint

/-! # Scheduling a run

One interleaving of a run, chosen without any clock: the puller moves whenever it can, else the
pusher, and when neither can, a call that wants to note how far the reads have come does so. The
schedule ends when both workers have ended, or when no call under way will ever return. Every move
is an event of `Run.step`.
-/
namespace Tabular.Transfer

/-- A run with its endpoints. `observed` holds the numbers of reads noted, the last one first. -/
structure Scene (σ κ : Type) where
  run : Run
  source : σ
  sink : κ
  counters : Counters := {}
  observed : List Nat := []

namespace Scene

variable {σ κ : Type} [Pullable σ] [Pushable κ]

/-- Let an event happen; one that is not possible changes nothing. -/
def happen (s : Scene σ κ) (e : Event) : Scene σ κ := { s with run := (s.run.step e).getD s.run }

def fireIf (s : Scene σ κ) (fires : Bool) : Scene σ κ :=
  if fires then s.happen .callerCancels else s

def pollRead (s : Scene σ κ) : Option (Scene σ κ) :=
  match Pullable.poll s.counters s.source with
  | .waits | .observes _ => none
  | .fires source => some ({ s with source }.fireIf true)
  | .ends fires how counters source =>
    let s := { s with source, counters }.fireIf fires
    some (match how with
      | .returns r => s.happen (.readReturns r)
      | .panics text => s.happen (.readPanics text))

def pollWrite (s : Scene σ κ) (b : Batch) : Option (Scene σ κ) :=
  match Pushable.poll s.counters s.sink b with
  | .waits | .observes _ => none
  | .fires sink => some ({ s with sink }.fireIf true)
  | .ends fires how counters sink =>
    let s := { s with sink, counters }.fireIf fires
    some (match how with
      | .returns r => s.happen (.writeReturns r)
      | .panics text => s.happen (.writePanics text))

def beginRead (s : Scene σ κ) : Scene σ κ :=
  let (counters, source) := Pullable.begin s.counters s.source
  let s := { s with counters, source }.happen .readStarts
  s.pollRead.getD s

def beginWrite (s : Scene σ κ) (b : Batch) : Scene σ κ :=
  let (counters, sink) := Pushable.begin s.counters s.sink
  let s := { s with counters, sink }.happen .writeStarts
  s.pollWrite b |>.getD s

def movePuller (s : Scene σ κ) : Option (Scene σ κ) :=
  if s.run.pullerMayStop then some (s.happen .pullerStops)
  else match s.run.puller with
    | .idle => some s.beginRead
    | .reading => s.pollRead
    | .holding _ => (s.run.step .sends).map fun run => { s with run }
    | .stopped | .panicked _ => none

def movePusher (s : Scene σ κ) : Option (Scene σ κ) :=
  if s.run.pusherMayStop then some (s.happen .pusherStops)
  else match s.run.pusher with
    | .idle => (s.run.step .receives).map fun run => { s with run }
    | .holding b => some (s.beginWrite b)
    | .writing b => s.pollWrite b
    | .stopped | .panicked _ => none

/-- Let a call under way note the reads begun so far, if it wants to. -/
def note (s : Scene σ κ) : Option (Scene σ κ) :=
  let observed := s.counters.reads :: s.observed
  let ofRead := match s.run.puller with
    | .reading => match Pullable.poll s.counters s.source with
      | .observes source => some { s with source, observed }
      | _ => none
    | _ => none
  let ofWrite := match s.run.pusher with
    | .writing b => match Pushable.poll s.counters s.sink b with
      | .observes sink => some { s with sink, observed }
      | _ => none
    | _ => none
  ofWrite.or ofRead

/-- Move on while anything moves, at most `fuel` times. -/
def work : Nat → Scene σ κ → Scene σ κ
  | 0, s => s
  | fuel + 1, s => match (s.movePuller.or s.movePusher).or s.note with
    | some s => work fuel s
    | none => s

/-- Join the workers and close what they have not lost. -/
def windUp (s : Scene σ κ) : Scene σ κ :=
  let s := s.happen .joins
  let s := if s.run.phase = .closingSource then
      let (e, source) := Pullable.close s.source
      { s with source }.happen (.sourceCloses e)
    else s
  if s.run.phase = .closingSink then
    let (e, sink) := Pushable.close s.sink
    { s with sink }.happen (.sinkCloses e)
  else s

/-- Run from the beginning to the end. A read gives one batch at most and each batch takes less
than ten moves on its way. -/
def play (capacity : Nat) (cancelled : Bool) (source : σ) (sink : κ) : Scene σ κ :=
  let s : Scene σ κ := { run := .start capacity cancelled, source, sink }
  (s.work (20 * (Pullable.size source + 4))).windUp

end Scene
end Tabular.Transfer
