import Tabular.Json.Value
import Tabular.Number.Decimal
import Tabular.Error

/-! # Documents

Settings come as documents, and what a part of a document stands for depends on what is expected
there. `Document` lists the readings a part may have; decoders are written against it once and
serve every notation that has an instance. A structure is read from named members, where unknown
names are passed over and a repeated name is refused, or from a list of its fields in order.
-/
namespace Tabular

class Document (δ : Type) where
  isNull : δ → Bool
  text? : δ → Option String
  flag? : δ → Option Bool
  nat? : δ → Option Nat
  char? : δ → Option Char
  choice? : δ → Option String
  items? : δ → Option (List δ)
  members? : δ → Option (List (String × δ))

namespace Document

def onlyChar? (s : String) : Option Char :=
  match s.toList with
  | [c] => some c
  | _ => none

/-- A natural number of 64 bits, as JSON writes it: digits, and no zero in front of others. -/
def count? (s : String) : Option Nat :=
  match Number.Decimal.nat? s.toList with
  | some n => if n ≤ Number.Decimal.nat64Max then some n else none
  | none => none

instance : Document Json where
  isNull := Json.isNull
  text? := Json.string?
  flag? := Json.bool?
  nat?
    | .number t => count? t
    | _ => none
  char?
    | .string s => onlyChar? s
    | _ => none
  choice?
    | .string s => some s
    | .object [(s, .null)] => some s
    | _ => none
  items? := Json.items?
  members? := Json.members?

variable {δ : Type} [Document δ]

def optional {α : Type} (read : δ → Option α) (d : δ) : Option (Option α) :=
  if isNull d then some none else (read d).map some

def listOf {α : Type} (read : δ → Option α) (d : δ) : Option (List α) := do
  (← items? d).mapM read

/-- The fields of a structure before they are read: for each name the part that holds it. -/
structure Fields (δ : Type) where
  parts : List (String × δ)

/-- Keep the members of known names; none of them may occur twice. -/
def pick? (names : List String) (members : List (String × δ)) : Option (Fields δ) :=
  let known := members.filter fun m => names.contains m.1
  if (known.map (·.1)).Nodup then some ⟨known⟩ else none

def zip? (names : List String) (items : List δ) : Option (Fields δ) :=
  if items.length ≤ names.length then some ⟨names.zip items⟩ else none

def fields? (names : List String) (d : δ) : Option (Fields δ) :=
  match members? d with
  | some ms => pick? names ms
  | none => match items? d with
    | some xs => zip? names xs
    | none => none

def Fields.required {α : Type} (f : Fields δ) (name : String) (read : δ → Option α) : Option α :=
  match f.parts.lookup name with
  | some d => read d
  | none => none

def Fields.withDefault {α : Type} (f : Fields δ) (name : String) (value : α)
    (read : δ → Option α) : Option α :=
  match f.parts.lookup name with
  | some d => read d
  | none => some value

end Document
end Tabular
