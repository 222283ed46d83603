import Tabular.Yaml.Scalar
import Tabular.Number.Decimal

/-! # Tokens of YAML

A text becomes tokens: scalars, marks, and the beginnings and ends that indentation implies. A
scalar may turn out to be a key only when a colon follows it, so the scan remembers where the
last possible key of each level stands and puts the tokens of a mapping in front of it then.
-/
namespace Tabular.Yaml

/-- A token. A mapping or sequence in block form begins where indentation grows and ends with
`blockEnd` where it shrinks. A tag is a handle, which stands for the beginning of a name, and the
rest of that name; a tag written in full has no handle. -/
inductive Token where
  | version (major minor : Nat)
  | handle (name start : String)
  | documentStart
  | documentEnd
  | blockSequence
  | blockMapping
  | blockEnd
  | flowSequence
  | flowSequenceEnd
  | flowMapping
  | flowMappingEnd
  | blockEntry
  | flowEntry
  | key
  | value
  | alias (name : String)
  | anchor (name : String)
  | tag (handle rest : String)
  | scalar (plain : Bool) (text : String)
  deriving DecidableEq, Repr

/-- A place where a key may have begun: the number of tokens before it, and where it stands. It
is required if it is indented like a mapping under way. -/
structure KeyPlace where
  before : Nat
  required : Bool
  line : Nat
  column : Nat
  index : Nat

/-- A scan: tokens in order, open indentations, the possible key of each level, the innermost
first, and whether a key may begin here. -/
structure Scan where
  cursor : Cursor
  tokens : List Token := []
  indent : Option Nat := none
  outer : List (Option Nat) := []
  keys : List (Option KeyPlace) := [none]
  keyAllowed : Bool := true

namespace Scan

def inFlow (s : Scan) : Bool := 1 < s.keys.length

def emit (s : Scan) (t : Token) : Scan := { s with tokens := s.tokens ++ [t] }

def emitOver (s : Scan) (t : Token) (n : Nat) : Scan :=
  { s.emit t with cursor := s.cursor.skip n }

def deeper (s : Scan) (column : Nat) : Bool :=
  match s.indent with
  | none => true
  | some n => n < column

/-- Open a collection at a column if it is indented further; its token goes after
`before` others. -/
def openAt (s : Scan) (column before : Nat) (t : Token) : Scan :=
  if !s.inFlow && s.deeper column then
    { s with outer := s.indent :: s.outer, indent := some column
             tokens := s.tokens.take before ++ t :: s.tokens.drop before }
  else s

/-- Close every collection indented further than a column; none closes them all. -/
def unroll (column : Option Nat) : List (Option Nat) → Scan → Scan
  | [], s => s
  | o :: os, s =>
    let inside := match s.indent, column with
      | none, _ => false
      | some _, none => true
      | some n, some c => c < n
    if inside then unroll column os { s.emit .blockEnd with indent := o, outer := os } else s

def closeTo (s : Scan) (column : Option Nat) : Scan :=
  if s.inFlow then s else unroll column s.outer s

/-- Forget the possible key of the level; one that is required must have become a key. -/
def dropKey (s : Scan) : Option Scan :=
  match s.keys with
  | some k :: ks => if k.required then none else some { s with keys := none :: ks }
  | _ => some s

def noteKey (s : Scan) : Option Scan :=
  if s.keyAllowed then do
    let required := !s.inFlow && s.indent == some s.cursor.column
    let place : KeyPlace := {
      before := s.tokens.length, required, line := s.cursor.line, column := s.cursor.column
      index := s.cursor.index }
    let s ← s.dropKey
    some { s with keys := some place :: s.keys.drop 1 }
  else some s

/-- Forget possible keys that began on an earlier line or too far back. -/
def dropStale (s : Scan) : Option Scan := do
  let keys ← s.keys.mapM fun k => match k with
    | none => some none
    | some p =>
      if p.line < s.cursor.line || p.index + 1024 < s.cursor.index then
        (if p.required then none else some none)
      else some (some p)
  some { s with keys }

/-- Go on to the next token, over blanks, comments and line breaks. Outside flow collections a
key may begin after a break; where one may, a tab is no blank. -/
def skipBlanks : Nat → Scan → Scan
  | 0, s => s
  | fuel + 1, s =>
    let blank := fun x => x == ' ' || (x == '\t' && (s.inFlow || !s.keyAllowed))
    let c := s.cursor.skip (s.cursor.rest.takeWhile blank).length
    let c := if c.isAt '#' then c.skipLine else c
    if c.peek.any isBreak then
      skipBlanks fuel { s with
        cursor := c.skipBreak, keyAllowed := if s.inFlow then s.keyAllowed else true }
    else { s with cursor := c }

def isNameChar (c : Char) : Bool := c.isAlphanum || c == '-' || c == '_'

def isTagChar (c : Char) : Bool :=
  isNameChar c || ";/?:@&=+$.%!~*'()".toList.contains c

def isFullTagChar (c : Char) : Bool := isTagChar c || c == ',' || c == '[' || c == ']'

/-- The handle in front of a tag: exclamation marks around a name that may be missing. The second
mark may be missing too. -/
def handleText (cs : List Char) : List Char :=
  match cs with
  | '!' :: r =>
    let name := r.takeWhile isNameChar
    match r.drop name.length with
    | '!' :: _ => '!' :: (name ++ ['!'])
    | _ => '!' :: name
  | _ => []

def versionNumber? (c : Cursor) : Option (Nat × Cursor) :=
  let ds := c.rest.takeWhile Char.isDigit
  if 9 < ds.length then none
  else (Number.Decimal.nat? ds).map (·, c.skip ds.length)

def version? (c : Cursor) : Option (Token × Cursor) := do
  let (major, c) ← versionNumber? c.skipGaps
  if !c.isAt '.' then none
  let (minor, c) ← versionNumber? (c.skip 1)
  some (.version major minor, c)

def handle? (c : Cursor) : Option (Token × Cursor) :=
  let c := c.skipGaps
  let name := handleText c.rest
  let behind := c.skip name.length
  let c := behind.skipGaps
  let start := c.rest.takeWhile isFullTagChar
  let whole := name == ['!'] || (1 < name.length && name.getLast? == some '!')
  if whole && behind.peek.any isGap && !start.isEmpty && c.blankAt start.length then
    some (.handle (String.ofList name) (String.ofList start), c.skip start.length)
  else none

def directive (s : Scan) : Option Scan := do
  let s ← (s.closeTo none).dropKey
  let name := (s.cursor.rest.drop 1).takeWhile isNameChar
  let c := s.cursor.skip (1 + name.length)
  let (token, c) ←
    if name == "YAML".toList then version? c
    else if name == "TAG".toList then handle? c
    else none
  let c := c.skipGaps
  let c := if c.isAt '#' then c.skipLine else c
  if c.peek.any fun x => !isBreak x then none
  else some { s.emit token with keyAllowed := false, cursor := c }

def documentMark (s : Scan) (t : Token) : Option Scan := do
  let s ← (s.closeTo none).dropKey
  some { s.emitOver t 3 with keyAllowed := false }

def flowStart (s : Scan) (t : Token) : Option Scan := do
  let s ← s.noteKey
  some { s.emitOver t 1 with keys := none :: s.keys, keyAllowed := true }

def flowEnd (s : Scan) (t : Token) : Option Scan := do
  let s ← s.dropKey
  let keys := if s.inFlow then s.keys.drop 1 else s.keys
  some { s.emitOver t 1 with keys, keyAllowed := false }

def flowEntry (s : Scan) : Option Scan := do
  let s ← s.dropKey
  some { s.emitOver .flowEntry 1 with keyAllowed := true }

def blockEntry (s : Scan) : Option Scan :=
  if !s.inFlow && !s.keyAllowed then none
  else do
    let s ← (s.openAt s.cursor.column s.tokens.length .blockSequence).dropKey
    some { s.emitOver .blockEntry 1 with keyAllowed := true }

def explicitKey (s : Scan) : Option Scan :=
  if !s.inFlow && !s.keyAllowed then none
  else do
    let s ← (s.openAt s.cursor.column s.tokens.length .blockMapping).dropKey
    some { s.emitOver .key 1 with keyAllowed := !s.inFlow }

/-- A colon: what stands before it on the line is a key, unless a key was marked before. -/
def value (s : Scan) : Option Scan :=
  match s.keys with
  | some k :: ks =>
    let s := { s with
      tokens := s.tokens.take k.before ++ Token.key :: s.tokens.drop k.before, keys := none :: ks }
    let s := s.openAt k.column k.before .blockMapping
    some { s.emitOver .value 1 with keyAllowed := false }
  | _ =>
    if !s.inFlow && !s.keyAllowed then none
    else
      let s := s.openAt s.cursor.column s.tokens.length .blockMapping
      some { s.emitOver .value 1 with keyAllowed := !s.inFlow }

def reference (s : Scan) (make : String → Token) : Option Scan := do
  let s ← s.noteKey
  let name := (s.cursor.rest.drop 1).takeWhile isNameChar
  let n := 1 + name.length
  let ends := s.cursor.blankAt n ||
    (s.cursor.peekAt n).any fun x => ['?', ':', ',', ']', '\x7d', '%', '@', '\x60'].contains x
  if name.isEmpty || !ends then none
  else some { s.emitOver (make (String.ofList name)) n with keyAllowed := false }

def tag? (cs : List Char) : Option (Token × Nat) :=
  match cs with
  | '!' :: '<' :: r =>
    let name := r.takeWhile isFullTagChar
    if name.isEmpty || (r.drop name.length).head? != some '>' then none
    else some (.tag "" (String.ofList name), 3 + name.length)
  | _ =>
    let front := handleText cs
    if 1 < front.length && front.getLast? == some '!' then
      let rest := (cs.drop front.length).takeWhile isTagChar
      if rest.isEmpty then none
      else some (.tag (String.ofList front) (String.ofList rest), front.length + rest.length)
    else
      let name := (cs.drop 1).takeWhile isTagChar
      let token := if name.isEmpty then Token.tag "" "!" else .tag "!" (String.ofList name)
      some (token, 1 + name.length)

def tag (s : Scan) : Option Scan := do
  let s ← s.noteKey
  let (token, n) ← tag? s.cursor.rest
  if s.cursor.blankAt n || (s.inFlow && s.cursor.peekAt n == some ',') then
    some { s.emitOver token n with keyAllowed := false }
  else none

def block (s : Scan) (literal : Bool) : Option Scan := do
  let s ← s.dropKey
  let (text, cursor) ← blockScalar literal s.indent (s.cursor.skip 1)
  some { s.emit (.scalar false (String.ofList text)) with cursor, keyAllowed := true }

def quoted (s : Scan) (single : Bool) : Option Scan := do
  let s ← s.noteKey
  let (text, cursor) ← quotedScalar single (s.cursor.rest.length + 1) [] (s.cursor.skip 1)
  some { s.emit (.scalar false (String.ofList text)) with cursor, keyAllowed := false }

def plain (s : Scan) : Option Scan := do
  let s ← s.noteKey
  let indent := match s.indent with
    | some n => n + 1
    | none => 0
  let (text, broken, cursor) ←
    plainScalar s.inFlow indent (s.cursor.rest.length + 1) [] {} s.cursor
  some { s.emit (.scalar true (String.ofList text)) with cursor, keyAllowed := broken }

def beginsPlain (s : Scan) (x : Char) : Bool :=
  let marks := "-?:,[]\x7b\x7d#&*!|>'\"%@\x60".toList
  !marks.contains x || (x == '-' && !(s.cursor.peekAt 1).any isGap) ||
  (!s.inFlow && (x == '?' || x == ':') && !s.cursor.blankAt 1)

def token (s : Scan) (x : Char) : Option Scan :=
  let c := s.cursor
  if c.column == 0 && x == '%' then s.directive
  else if c.atMark '-' then s.documentMark .documentStart
  else if c.atMark '.' then s.documentMark .documentEnd
  else if x == '[' then s.flowStart .flowSequence
  else if x == '\x7b' then s.flowStart .flowMapping
  else if x == ']' then s.flowEnd .flowSequenceEnd
  else if x == '\x7d' then s.flowEnd .flowMappingEnd
  else if x == ',' then s.flowEntry
  else if x == '-' && c.blankAt 1 then s.blockEntry
  else if x == '?' && (s.inFlow || c.blankAt 1) then s.explicitKey
  else if x == ':' && (s.inFlow || c.blankAt 1) then s.value
  else if x == '*' then s.reference .alias
  else if x == '&' then s.reference .anchor
  else if x == '!' then s.tag
  else if x == '|' && !s.inFlow then s.block true
  else if x == '>' && !s.inFlow then s.block false
  else if x == '\x27' then s.quoted true
  else if x == '"' then s.quoted false
  else if s.beginsPlain x && !isGap x then s.plain
  else none

def all : Nat → Scan → Option (List Token)
  | 0, _ => none
  | fuel + 1, s => do
    let s := s.skipBlanks (s.cursor.rest.length + 1)
    let s ← s.dropStale
    match s.cursor.peek with
    | none =>
      let s ← (s.closeTo none).dropKey
      some s.tokens
    | some x =>
      let s := s.closeTo (some s.cursor.column)
      let s ← s.token x
      all fuel s

end Scan

def Token.ofText? (text : String) : Option (List Token) :=
  let cs := text.toList
  if cs.all isAllowed then Scan.all (cs.length + 1) { cursor := { rest := cs } } else none

end Tabular.Yaml
