/-! # Paths

A path keeps the text it was given, and that text is what messages show. Two paths are compared
by their components: repeated and trailing separators and inner `.` do not count, while a
leading `.` and every `..` do. The extension of a path is that of its last component.
-/
namespace Tabular

structure Path where
  text : String
  deriving Repr, Inhabited, DecidableEq

namespace Path

inductive Component where
  | root
  | current
  | parent
  | name (s : String)
  deriving DecidableEq, Repr

/-- Cut a text at every `/`; there is always one piece more than there are separators. -/
def pieces : List Char → List (List Char)
  | [] => [[]]
  | '/' :: r => [] :: pieces r
  | c :: r => match pieces r with
    | [] => [[c]]
    | p :: ps => (c :: p) :: ps

def Component.ofPiece? : List Char → Option Component
  | [] => none
  | ['.'] => none
  | ['.', '.'] => some .parent
  | cs => some (.name (String.ofList cs))

def components (p : Path) : List Component :=
  match pieces p.text.toList with
  | [] => []
  | first :: rest =>
    let inner := rest.filterMap Component.ofPiece?
    match first with
    | [] => if rest.isEmpty then inner else .root :: inner
    | ['.'] => .current :: inner
    | cs => (Component.ofPiece? cs).toList ++ inner

def same (p q : Path) : Bool := p.components == q.components

def fileName? (p : Path) : Option String :=
  match p.components.getLast? with
  | some (.name s) => some s
  | _ => none

/-- What follows the last dot of a file name, unless that dot is its first character. -/
def extension? (p : Path) : Option String :=
  match p.fileName? with
  | none => none
  | some s =>
    let back := s.toList.reverse
    let after := back.takeWhile (· != '.')
    match back.dropWhile (· != '.') with
    | [] => none
    | _ :: [] => none
    | _ :: _ :: _ => some (String.ofList after.reverse)

end Path
end Tabular
