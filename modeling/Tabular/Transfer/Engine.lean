import Tabular.Transfer.Schedule

/-! # Engines

An engine holds a source and a sink and runs at most once. Settings that cannot be used are found
before anything starts, and the engine then stays as it was. The queue is within the limit of its
channel; `Machine.start` is a start that need not be.
-/
namespace Tabular.Transfer

/-- An engine at rest. It holds its endpoints until it starts. -/
structure Engine (σ κ : Type) where
  source : Option σ
  sink : Option κ
  settings : Settings := {}
  state : State := .idle
  metrics : Metrics := {}

structure Started (σ κ : Type) where
  result : Except Error Metrics
  engine : Engine σ κ
  scene : Option (Scene σ κ)

namespace Engine

variable {σ κ : Type}

def ofEndpoints (source : σ) (sink : κ) : Engine σ κ := { source := some source, sink := some sink }

def withSettings (e : Engine σ κ) (s : Settings) : Engine σ κ := { e with settings := s }

def conclude (e : Engine σ κ) (r : Run) (startedAt finishedAt : Calendar.Instant) :
    Except Error Metrics × Engine σ κ :=
  let metrics := r.metrics startedAt finishedAt
  (r.result.map fun _ => metrics,
    { e with source := none, sink := none, state := Run.stateOf r.result, metrics })

/-- The endpoints of an engine that may start: it has not started before, its settings can be
used, and it holds both endpoints. -/
def check (e : Engine σ κ) : Except Error (σ × κ) :=
  if e.state = .idle then
    match e.settings.validate with
    | .error err => .error err
    | .ok _ => match e.source, e.sink with
      | some source, some sink => .ok (source, sink)
      | _, _ => .error (.validation .noEndpoints)
  else .error (.validation (.notIdle e.state))

/-- Run the transfer. `cancelled` tells whether the caller's token has fired already. -/
def start [Pullable σ] [Pushable κ] (e : Engine σ κ) (cancelled : Bool)
    (startedAt finishedAt : Calendar.Instant) : Started σ κ :=
  match e.check with
  | .error err => ⟨.error err, e, none⟩
  | .ok (source, sink) =>
    let scene := Scene.play e.settings.queueCapacity cancelled source sink
    let (result, engine) := e.conclude scene.run startedAt finishedAt
    ⟨result, engine, some scene⟩

/-- The result of a start and the engine it leaves when its run goes along given events. There is
none unless the events are possible and the run has come to its end; a start that is refused
has no events. -/
def startAlong (e : Engine σ κ) (cancelled : Bool) (events : List Event)
    (startedAt finishedAt : Calendar.Instant) : Option (Except Error Metrics × Engine σ κ) :=
  match e.check with
  | .error err => if events.isEmpty then some (.error err, e) else none
  | .ok _ => match (Run.start e.settings.queueCapacity cancelled).steps events with
    | some r => if r.phase = .closed then some (e.conclude r startedAt finishedAt) else none
    | none => none

end Engine
end Tabular.Transfer
