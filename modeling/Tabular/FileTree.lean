import Tabular.Path
import Tabular.Error

/-! # File trees

Files and directories under one root, and the directory that relative paths start from. A path is
resolved by walking: each step but the last must lead from a directory to a directory, so that
`a/../b` exists only where `a` does. Several paths may lead to one file.
-/
namespace Tabular

/-- Where a file is: names from the root on. -/
abbrev Location := List String

inductive Entry where
  | directory
  | file (bytes : List UInt8)
  deriving DecidableEq, Repr, Inhabited

/-- Entries at their locations. The root itself is always a directory. -/
structure FileTree where
  entries : List (Location × Entry) := []
  workingDirectory : Location := []
  deriving DecidableEq, Repr, Inhabited

inductive Path.Step where
  | stay
  | up
  | into (name : String)
  deriving DecidableEq, Repr

namespace Path

def Step.ofPiece? : List Char → Option Step
  | [] => none
  | ['.'] => some .stay
  | ['.', '.'] => some .up
  | cs => some (.into (String.ofList cs))

def steps (p : Path) : List Step := (pieces p.text.toList).filterMap Step.ofPiece?

def isAbsolute (p : Path) : Bool := p.text.toList.head? == some '/'

def endsWithSeparator (p : Path) : Bool := p.text.toList.getLast? == some '/'

/-- The longest name and the longest path a file system takes, in bytes. -/
def nameLimit : Nat := 255
@[inherit_doc nameLimit] def lengthLimit : Nat := 4095

end Path

namespace FileTree

def get? (t : FileTree) (l : Location) : Option Entry :=
  match l with
  | [] => some .directory
  | _ => t.entries.lookup l

def putIn (l : Location) (e : Entry) : List (Location × Entry) → List (Location × Entry)
  | [] => [(l, e)]
  | (k, x) :: r => if k = l then (k, e) :: r else (k, x) :: putIn l e r

def put (t : FileTree) (l : Location) (e : Entry) : FileTree :=
  { t with entries := putIn l e t.entries }

/-- Take a step from a location, which has to be a directory. -/
def move (t : FileTree) (l : Location) (s : Path.Step) : Except FileFault Location :=
  match t.get? l with
  | none => .error .notFound
  | some (.file _) => .error .notDirectory
  | some .directory => match s with
    | .stay => .ok l
    | .up => .ok l.dropLast
    | .into name =>
      if Path.nameLimit < name.utf8ByteSize then .error .nameTooLong else .ok (l ++ [name])

/-- Where a path leads; nothing need be there. -/
def walk (t : FileTree) (p : Path) : Except FileFault Location :=
  if p.text.isEmpty then .error .notFound
  else if p.text.toList.contains '\x00' then .error .nulInName
  else if Path.lengthLimit < p.text.utf8ByteSize then .error .nameTooLong
  else p.steps.foldlM t.move (if p.isAbsolute then [] else t.workingDirectory)

def locate (t : FileTree) (p : Path) : Except FileFault Location := do
  let l ← t.walk p
  match t.get? l with
  | none => throw .notFound
  | some (.file _) => if p.endsWithSeparator then throw .notDirectory else return l
  | some .directory => return l

def entry (t : FileTree) (p : Path) : Except FileFault Entry := do
  match t.get? (← t.locate p) with
  | some e => return e
  | none => throw .notFound

def contains (t : FileTree) (p : Path) : Bool :=
  match t.locate p with
  | .ok _ => true
  | .error _ => false

/-- Create a file or empty the one that is there. -/
def create (t : FileTree) (p : Path) : Except FileFault (Location × FileTree) := do
  let l ← t.walk p
  if p.endsWithSeparator || t.get? l = some .directory then throw .isDirectory
  return (l, t.put l (.file []))

def openEntry (t : FileTree) (p : Path) : Except Error Entry :=
  match t.entry p with
  | .ok e => .ok e
  | .error .notFound => .error (.fileNotFound p.text)
  | .error f => .error (.file f)

end FileTree
end Tabular
