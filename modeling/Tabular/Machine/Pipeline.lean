import Tabular.Machine
import Tabular.Pipeline

/-! # Pipelines on a machine

An inference that goes beyond a limit panics in a task of its own, so its pipeline fails with that
before it has touched anything. A transfer that does so panics when both of its ends are open.
`Pipeline.run` is what a pipeline comes to within the limits.
-/
namespace Tabular.Machine

def openSource (t : FileTree) (e : Endpoint) (o : Options) (s : Inference.Surroundings)
    (cancelled : Bool) : Except Error Source :=
  match e.resolve with
  | .ok .csv =>
    let o := o.forPath e.path
    match t.openEntry e.path with
    | .error err => .error err
    | .ok entry => match infer o s cancelled entry.chunks with
      | .error x => .error (.taskFailed "Inference" x.text)
      | .ok inferred => do
        let outcome ← inferred
        return .delimited (← DelimitedSource.ofPath t outcome.schema o e.path)
  | _ => Source.ofEndpoint t e o s cancelled

/-- A run of a pipeline that panics where its queue goes beyond the limit. -/
def runPipeline (t : FileTree) (c : Config) (s : Pipeline.Surroundings) (cancelled : Bool) :
    Except Excess Pipeline.Outcome :=
  match c.validate with
  | .error e => .ok ⟨.error e, t⟩
  | .ok _ => match openSource t c.source c.inference s.inference cancelled with
    | .error e => .ok ⟨.error e, t⟩
    | .ok source => match FileSink.ofEndpoint t c.sink source.layout c.parquet with
      | (.error e, t) => .ok ⟨.error e, t⟩
      | (.ok sink, after) =>
        let source := Pipeline.settled t c.source.path sink.location source
        (within placesMax .places c.transfer.queueCapacity).map fun _ =>
          Pipeline.transfer c s cancelled source sink after

end Tabular.Machine
