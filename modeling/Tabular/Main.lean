import Std.Time.DateTime.Timestamp
import Tabular.Command.Run

/-! # The program

Reads a command line, takes the files it names into a file tree, carries the command out on that
tree, and writes back the files that changed. All decisions are made elsewhere; here is what has to
touch the world.
-/
namespace Tabular

def Location.absolute (l : Location) : String := "/" ++ String.intercalate "/" l

namespace FileTree

/-- Take what the world has at a location into a tree; only the content of a file that is asked for
is read. -/
def takeLocation (t : FileTree) (wholly : Bool) (l : Location) : IO FileTree := do
  match ← (IO.FS.realPath (Location.absolute l)).toBaseIO with
  | .error _ => return t
  | .ok p =>
    if ← p.isDir then return t.put l .directory
    else if wholly then return t.put l (.file (← IO.FS.readBinFile p).toList)
    else return t.put l (.file [])

/-- Take a path into a tree: every directory on its way, and what is at its end. -/
def takePath (t : FileTree) (p : Path) : IO FileTree := do
  let start := if p.isAbsolute then [] else t.workingDirectory
  let step (s : Location × FileTree) (next : Path.Step) : IO (Location × FileTree) := do
    let tree ← if (s.2.get? s.1).isSome then pure s.2 else takeLocation s.2 false s.1
    match next with
    | .stay => return (s.1, tree)
    | .up => return (s.1.dropLast, tree)
    | .into name => return (s.1 ++ [name], tree)
  let (last, tree) ← p.steps.foldlM step (start, t)
  takeLocation tree true last

def ofWorkingDirectory : IO FileTree := do
  let here : Path := ⟨(← IO.currentDir).toString⟩
  let location := here.steps.foldl (fun l s => match s with
    | .into name => l ++ [name]
    | _ => l) []
  let t : FileTree := { workingDirectory := location }
  return t.put location .directory

/-- Write the files that an earlier tree does not have, or has with another content. -/
def writeSince (t before : FileTree) : IO Unit :=
  t.entries.forM fun (l, e) => match e with
    | .directory => pure ()
    | .file bytes =>
      if before.get? l = some e then pure ()
      else IO.FS.writeBinFile (Location.absolute l) ⟨bytes.toArray⟩

end FileTree

namespace Command

def Action.takeFiles (a : Action) : IO FileTree := do
  let t ← FileTree.ofWorkingDirectory
  match a with
  | .infer a => t.takePath a.path
  | .convert a =>
    let t ← a.config.toList.foldlM FileTree.takePath t
    match a.settings (Config.ofFile t) with
    | .error _ => return t
    | .ok c => [c.source.path, c.sink.path].foldlM FileTree.takePath t

def now : IO Calendar.Instant := do
  let t ← Std.Time.Timestamp.now
  let nanos := t.toNanosecondsSinceUnixEpoch.val
  return ⟨nanos.fdiv 1000000000, (nanos.fmod 1000000000).toNat⟩

/-- Carry a command out in the world, and say with what status to end. -/
def Invocation.perform (v : Invocation) : IO UInt32 := do
  let before ← v.action.takeFiles
  let t ← now
  let outcome := v.action.run before ⟨⟨1, t.text "+00:00"⟩, t, t⟩
  outcome.tree.writeSince before
  match outcome.printed with
  | .ok text =>
    IO.print text
    return 0
  | .error e =>
    IO.eprintln ("Error: " ++ e.message)
    return 1

end Command
end Tabular

def main (args : List String) : IO UInt32 := do
  match Tabular.Command.Invocation.ofArguments args with
  | .ok v => v.perform
  | .error r =>
    if r.exitCode = 0 then IO.println r.message else IO.eprintln r.message
    return UInt32.ofNat r.exitCode
