import Tabular.Yaml.Token
import Tabular.Config.Document

/-! # YAML documents

Tokens become a tree of scalars, sequences and mappings. An alias stands for the node that its
anchor was put on last; inside that node itself it stands for nothing that could be read. A text
holds exactly one document.
-/
namespace Tabular.Yaml

inductive Node where
  | scalar (plain : Bool) (tag : Option String) (text : String)
  | sequence (items : List Node)
  | mapping (members : List (Node × Node))
  | enclosing
  deriving Repr, Inhabited

/-- What is left to read: tokens, and the nodes of the anchors met, the latest first. -/
structure Stream where
  tokens : List Token
  anchors : List (String × Node) := []
  handles : List (String × String) := []

namespace Node

abbrev Step := StateT Stream Option

def skip (n : Nat) : Step Unit := modify fun s => { s with tokens := s.tokens.drop n }

def peek : Step (Option Token) := return (← get).tokens.head?

def bind (anchor : Option String) (n : Node) : Step Unit :=
  match anchor with
  | some a => modify fun s => { s with anchors := (a, n) :: s.anchors }
  | none => pure ()

/-- The name of a tag, its handle replaced by what it stands for. -/
def resolveTag (handle rest : String) : Step String :=
  if handle.isEmpty then pure rest
  else do
    let start ← (← get).handles.lookup handle
    pure (start ++ rest)

def properties : Step (Option String × Option String) := do
  match (← get).tokens with
  | .anchor a :: .tag h r :: _ => skip 2; return (some a, some (← resolveTag h r))
  | .tag h r :: .anchor a :: _ => skip 2; return (some a, some (← resolveTag h r))
  | .anchor a :: _ => skip 1; return (some a, none)
  | .tag h r :: _ => skip 1; return (none, some (← resolveTag h r))
  | _ => return (none, none)

/-- A node of which nothing is written. -/
def empty : Node := .scalar true none ""

mutual

/-- Read a node. `block` tells whether collections in block form may begin, and `flat` whether a
sequence may that is not indented further than the key before it. -/
def read (block flat : Bool) : Nat → Step Node
  | 0 => failure
  | fuel + 1 => do
    match ← peek with
    | some (.alias a) =>
      skip 1
      (← get).anchors.lookup a
    | _ =>
      let (anchor, tag) ← properties
      bind anchor .enclosing
      let node ← content block flat (anchor.isSome || tag.isSome) tag fuel
      bind anchor node
      pure node

/-- Read what follows the properties of a node. Where there are any, nothing need follow. -/
def content (block flat marked : Bool) (tag : Option String) : Nat → Step Node
  | 0 => failure
  | fuel + 1 => do
    match ← peek, block, flat with
    | some .blockEntry, _, true => return .sequence (← flatItems fuel)
    | some (.scalar plain text), _, _ => skip 1; return .scalar plain tag text
    | some .flowSequence, _, _ => skip 1; return .sequence (← flowItems true fuel)
    | some .flowMapping, _, _ => skip 1; return .mapping (← flowMembers true fuel)
    | some .blockSequence, true, _ => skip 1; return .sequence (← blockItems fuel)
    | some .blockMapping, true, _ => skip 1; return .mapping (← blockMembers fuel)
    | _, _, _ => if marked then return .scalar true tag "" else failure

def readUnless (ends : List Token) (block flat : Bool) : Nat → Step Node
  | 0 => failure
  | fuel + 1 => do
    match ← peek with
    | some t => if ends.contains t then return empty else read block flat fuel
    | none => read block flat fuel

def blockItems : Nat → Step (List Node)
  | 0 => failure
  | fuel + 1 => do
    match ← peek with
    | some .blockEntry =>
      skip 1
      let item ← readUnless [.blockEntry, .blockEnd] true false fuel
      return item :: (← blockItems fuel)
    | some .blockEnd => skip 1; return []
    | _ => failure

/-- The items of a sequence that is not indented; it has no end of its own. -/
def flatItems : Nat → Step (List Node)
  | 0 => failure
  | fuel + 1 => do
    match ← peek with
    | some .blockEntry =>
      skip 1
      let item ← readUnless [.blockEntry, .key, .value, .blockEnd] true false fuel
      return item :: (← flatItems fuel)
    | _ => return []

def blockMembers : Nat → Step (List (Node × Node))
  | 0 => failure
  | fuel + 1 => do
    match ← peek with
    | some .key =>
      skip 1
      let k ← readUnless [.key, .value, .blockEnd] true true fuel
      let v ← match ← peek with
        | some .value => do
          skip 1
          readUnless [.key, .value, .blockEnd] true true fuel
        | _ => pure empty
      return (k, v) :: (← blockMembers fuel)
    | some .blockEnd => skip 1; return []
    | _ => failure

/-- The items of a sequence in brackets, and its end. An item may be a single member of a
mapping. -/
def flowItems (first : Bool) : Nat → Step (List Node)
  | 0 => failure
  | fuel + 1 => do
    if (← peek) == some .flowSequenceEnd then
      skip 1
      return []
    if !first then
      if (← peek) == some .flowEntry then skip 1 else failure
    match ← peek with
    | some .flowSequenceEnd => skip 1; return []
    | some .key =>
      skip 1
      let k ← match ← peek with
        | some .value | some .flowEntry | some .flowSequenceEnd => do skip 1; pure empty
        | _ => read false false fuel
      let v ← match ← peek with
        | some .value => do
          skip 1
          readUnless [.flowEntry, .flowSequenceEnd] false false fuel
        | _ => pure empty
      return .mapping [(k, v)] :: (← flowItems false fuel)
    | _ =>
      let item ← read false false fuel
      return item :: (← flowItems false fuel)

def flowMembers (first : Bool) : Nat → Step (List (Node × Node))
  | 0 => failure
  | fuel + 1 => do
    if (← peek) == some .flowMappingEnd then
      skip 1
      return []
    if !first then
      if (← peek) == some .flowEntry then skip 1 else failure
    match ← peek with
    | some .flowMappingEnd => skip 1; return []
    | some .key =>
      skip 1
      let k ← readUnless [.value, .flowEntry, .flowMappingEnd] false false fuel
      let v ← match ← peek with
        | some .value => do
          skip 1
          readUnless [.flowEntry, .flowMappingEnd] false false fuel
        | _ => pure empty
      return (k, v) :: (← flowMembers false fuel)
    | _ =>
      let k ← read false false fuel
      return (k, empty) :: (← flowMembers false fuel)

end

def knownHandles : List (String × String) := [("!", "!"), ("!!", "tag:yaml.org,2002:")]

/-- Take the directives off the front; each may be given once. Answers whether there were any. -/
def directives (version : Bool) (handles : List (String × String)) :
    List Token → Option (List (String × String) × Bool × List Token)
  | .version major minor :: r =>
    if version || major != 1 || (minor != 1 && minor != 2) then none
    else directives true handles r
  | .handle name start :: r =>
    if (handles.lookup name).isSome then none
    else directives version ((name, start) :: handles) r
  | r => some (handles ++ knownHandles, version || !handles.isEmpty, r)

def ofTokens? (ts : List Token) : Option Node := do
  let (handles, any, ts) ← directives false [] ts
  let (explicit, ts) ← match ts with
    | .documentStart :: r => some (true, r)
    | [] => none
    | ts => if any then none else some (false, ts)
  let fuel := 4 * ts.length + 8
  let (node, s) ← match explicit, ts with
    | true, [] => some (empty, { tokens := [], handles })
    | true, .documentEnd :: _ => some (empty, { tokens := ts, handles })
    | _, _ => (read true false fuel).run { tokens := ts, handles }
  if s.tokens.all (· == .documentEnd) then some node else none

def ofText? (text : String) : Option Node := (Token.ofText? text).bind ofTokens?

/-! ## Readings -/

def isNullText (s : String) : Bool := ["", "~", "null", "Null", "NULL"].contains s

def inBase? (base : Nat) (cs : List Char) : Option Nat :=
  if cs.isEmpty then none
  else cs.foldlM (fun n c => match Json.hexDigit? c with
    | some d => if d < base then some (n * base + d) else none
    | none => none) 0

/-- A natural number of 64 bits: decimal, or in base 16, 8 or 2 behind a mark. Digits that begin
with a zero are no number. -/
def count? (cs : List Char) : Option Nat :=
  let ds := match cs with
    | '+' :: r => r
    | r => r
  let n := match ds with
    | '0' :: 'x' :: r => inBase? 16 r
    | '0' :: 'o' :: r => inBase? 8 r
    | '0' :: 'b' :: r => inBase? 2 r
    | '0' :: _ :: _ => none
    | r => Number.Decimal.nat? r
  match n with
  | some n => if n ≤ Number.Decimal.nat64Max then some n else none
  | none => none

def nullTag : String := "tag:yaml.org,2002:null"

def text? : Node → Option String
  | .scalar _ _ s => some s
  | _ => none

def tagName? (tag : Option String) : Option String :=
  match tag.map String.toList with
  | some ('!' :: name) => some (String.ofList name)
  | _ => none

/-- Settings are read from nodes. A plain scalar that is empty counts as an empty list and as a
list without members; a choice may be made by a tag in front of nothing. -/
instance : Document Node where
  isNull
    | .scalar true tag s => (tag.isNone || tag == some nullTag) && isNullText s
    | _ => false
  text? := text?
  flag?
    | .scalar true _ s =>
      if ["true", "True", "TRUE"].contains s then some true
      else if ["false", "False", "FALSE"].contains s then some false
      else none
    | _ => none
  nat?
    | .scalar true _ s => count? s.toList
    | _ => none
  char? n := (text? n).bind Document.onlyChar?
  choice?
    | .scalar plain tag s => match tagName? tag with
      | some name => if plain && isNullText s then some name else none
      | none => some s
    | _ => none
  items?
    | .sequence items => some items
    | .scalar true none "" => some []
    | _ => none
  members?
    | .mapping ms => ms.mapM fun (k, v) => (text? k).map (·, v)
    | .scalar true none "" => some []
    | _ => none

end Node
end Tabular.Yaml
