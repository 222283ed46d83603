import Tabular.Config.Text
import Tabular.FileTree
import Tabular.Text.Utf8

/-! # Settings files -/
namespace Tabular

def FileTree.readText (t : FileTree) (p : Path) : Except FileFault String := do
  match ← t.entry p with
  | .directory => throw .isDirectory
  | .file bytes => match Text.Utf8.decode? bytes with
    | some s => return s
    | none => throw .notUtf8

/-- The settings that a file holds, if they can be run. -/
def Config.ofFile (t : FileTree) (p : Path) : Except Error Config :=
  match t.readText p with
  | .ok text => Config.ofYaml text
  | .error .notFound => .error (.fileNotFound p.text)
  | .error f => .error (.file f)

end Tabular
