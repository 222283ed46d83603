import Tabular.Command.Arguments
import Tabular.Config.File
import Tabular.Pipeline

/-! # Carrying out commands

A command either prints a document, the schema it inferred or the metrics of its transfer, or
fails with an error and prints nothing.
-/
namespace Tabular.Command

structure Outcome where
  printed : Except Error String
  tree : FileTree

def print (document : Json) : String := document.pretty ++ "\n"

/-- Infer a schema. Options are looked at before the file is. -/
def InferArguments.run (a : InferArguments) (t : FileTree) (s : Pipeline.Surroundings) : Outcome :=
  let o := (a.reading.apply {}).forPath a.path
  let outcome := do
    o.validate
    Inference.inferPath t o s.inference false a.path
  ⟨outcome.map fun r => print r.schema.encode, t⟩

def ConvertArguments.run (a : ConvertArguments) (t : FileTree) (s : Pipeline.Surroundings) :
    Outcome :=
  match a.settings (Config.ofFile t) with
  | .error e => ⟨.error e, t⟩
  | .ok c =>
    let outcome := Pipeline.run t c s false
    ⟨outcome.result.map fun m => print m.encode, outcome.tree⟩

def Action.run (a : Action) (t : FileTree) (s : Pipeline.Surroundings) : Outcome :=
  match a with
  | .infer a => a.run t s
  | .convert a => a.run t s

end Tabular.Command
