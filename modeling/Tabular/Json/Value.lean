/-! # JSON values

A value keeps what a text of it says: a number stays the text that was written, so that no
rounding happens before it is known what the number stands for, and an object keeps its members
in order, repeated names included. Reading a member of an object takes the last one of its name.
-/
namespace Tabular

inductive Json where
  | null
  | bool (b : Bool)
  | number (text : String)
  | string (s : String)
  | array (items : List Json)
  | object (members : List (String × Json))
  deriving Repr, Inhabited, BEq

namespace Json

/-- The member of a name, the last one if the name is repeated. -/
def member? (name : String) : Json → Option Json
  | .object ms => (ms.reverse.find? (·.1 == name)).map (·.2)
  | _ => none

def string? : Json → Option String
  | .string s => some s
  | _ => none

def bool? : Json → Option Bool
  | .bool b => some b
  | _ => none

def items? : Json → Option (List Json)
  | .array xs => some xs
  | _ => none

def members? : Json → Option (List (String × Json))
  | .object ms => some ms
  | _ => none

def isNull : Json → Bool
  | .null => true
  | _ => false

/-- Give a member a value: in its place if the name is there, else at the end. -/
def insert (name : String) (v : Json) : List (String × Json) → List (String × Json)
  | [] => [(name, v)]
  | (n, w) :: ms => if n == name then (n, v) :: ms else (n, w) :: insert name v ms

end Json
end Tabular
