import Tabular.Sink.File
import Tabular.Source.File
import Tabular.Transfer.Engine

/-! # Pipelines

A pipeline opens the source its settings name, creates the sink, and runs one transfer between
them. Settings are validated before anything is touched, and the sink is created only when the
source is open, so a failure up to then leaves the file tree as it was. Sizes are within the limits
of the machine; `Machine.runPipeline` is a run whose sizes need not be.
-/
namespace Tabular

/-- Writing and closing a sink into a file return at once. -/
instance : Transfer.Pushable FileSink where
  begin c s := (c, s)
  poll c s b := let (r, s) := s.write b; .ends false (.returns r) c s
  close s := match s.close with
    | (.ok _, s) => (none, s)
    | (.error e, s) => (some e, s)

namespace Pipeline

structure Surroundings where
  inference : Inference.Surroundings
  startedAt : Calendar.Instant
  finishedAt : Calendar.Instant

structure Outcome where
  result : Except Error Transfer.Metrics
  tree : FileTree

/-- The source as the transfer finds it, the sink having been created at a location. If that is
where the source reads from, its file was emptied. -/
def settled (t : FileTree) (p : Path) (location : Location) (source : Source) : Source :=
  match t.locate p with
  | .ok l => match t.get? l with
    | some (.file bytes) => if l = location then source.afterEmptying bytes else source
    | _ => source
  | .error _ => source

def transfer (c : Config) (s : Surroundings) (cancelled : Bool) (source : Source) (sink : FileSink)
    (t : FileTree) : Outcome :=
  let engine := (Transfer.Engine.ofEndpoints source sink).withSettings c.transfer
  let started := engine.start cancelled s.startedAt s.finishedAt
  let sink := match started.scene with
    | some scene => scene.sink
    | none => sink
  ⟨started.result, sink.save t⟩

def run (t : FileTree) (c : Config) (s : Surroundings) (cancelled : Bool) : Outcome :=
  match c.validate with
  | .error e => ⟨.error e, t⟩
  | .ok _ => match Source.ofEndpoint t c.source c.inference s.inference cancelled with
    | .error e => ⟨.error e, t⟩
    | .ok source => match FileSink.ofEndpoint t c.sink source.layout c.parquet with
      | (.error e, t) => ⟨.error e, t⟩
      | (.ok sink, after) =>
        transfer c s cancelled (settled t c.source.path sink.location source) sink after

end Pipeline
end Tabular
