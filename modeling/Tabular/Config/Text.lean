import Tabular.Config.Encoding
import Tabular.Yaml.Node

/-! # Settings of a pipeline as a text

The settings of a pipeline are written in YAML. What is read is validated at once, so settings
that are answered can be run.
-/
namespace Tabular

def Config.ofYaml (text : String) : Except Error Config :=
  match (Yaml.Node.ofText? text).bind Config.decode? with
  | none => .error .yaml
  | some c => c.validate.map fun _ => c

end Tabular
