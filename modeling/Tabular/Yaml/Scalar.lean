import Tabular.Yaml.Cursor
import Tabular.Json.Reader

/-! # Scalars of YAML

The texts a scalar can be written as: plain, in single or double quotes, or as an indented block.
A line break inside a scalar folds: one break becomes a space and further ones stay, except in a
literal block. Every reader answers the text and the cursor behind it.
-/
namespace Tabular.Yaml

/-- White space met inside a scalar and not yet part of it: blanks on the line, the break after
it, and further breaks. -/
structure Fold where
  gaps : List Char := []
  first : List Char := []
  more : List Char := []
  broken : Bool := false

namespace Fold

/-- What the white space comes to when the scalar goes on behind it. -/
def text (f : Fold) : List Char :=
  if f.broken then
    if f.first == ['\n'] then (if f.more.isEmpty then [' '] else f.more) else f.first ++ f.more
  else f.gaps

def takeBreak (f : Fold) (c : Cursor) : Fold :=
  if f.broken then { f with more := f.more ++ c.breakText }
  else { f with gaps := [], first := c.breakText, broken := true }

end Fold

abbrev Done := List Char

def Done.fold (d : Done) (f : Fold) : Done := f.text.reverse ++ d

def quotedGaps : Nat → Fold → Cursor → Fold × Cursor
  | 0, f, c => (f, c)
  | fuel + 1, f, c => match c.peek with
    | none => (f, c)
    | some x =>
      if isGap x then
        quotedGaps fuel (if f.broken then f else { f with gaps := f.gaps ++ [x] }) (c.skip 1)
      else if isBreak x then quotedGaps fuel (f.takeBreak c) c.skipBreak
      else (f, c)

def escape? : Char → Option Char
  | '0' => some '\x00'
  | 'a' => some '\x07'
  | 'b' => some '\x08'
  | 't' => some '\t'
  | '\t' => some '\t'
  | 'n' => some '\n'
  | 'v' => some '\x0b'
  | 'f' => some '\x0c'
  | 'r' => some '\r'
  | 'e' => some '\x1b'
  | ' ' => some ' '
  | '"' => some '"'
  | '/' => some '/'
  | '\\' => some '\\'
  | 'N' => some '\u0085'
  | '_' => some '\u00a0'
  | 'L' => some '\u2028'
  | 'P' => some '\u2029'
  | _ => none

def escapeDigits? : Char → Option Nat
  | 'x' => some 2
  | 'u' => some 4
  | 'U' => some 8
  | _ => none

def codePoint? (ds : List Char) : Option Char := do
  let n ← ds.foldlM (fun n d => (Json.hexDigit? d).map (n * 16 + ·)) 0
  if n < 0xD800 || (0xDFFF < n && n < 0x110000) then some (Char.ofNat n) else none

def escaped? (c : Cursor) : Option (Char × Cursor) :=
  match c.peekAt 1 with
  | none => none
  | some x => match escapeDigits? x with
    | some n =>
      let ds := (c.rest.drop 2).take n
      if ds.length = n then (codePoint? ds).map (·, c.skip (2 + n)) else none
    | none => (escape? x).map (·, c.skip 2)

def quotedScalar (single : Bool) : Nat → Done → Cursor → Option (List Char × Cursor)
  | 0, _, _ => none
  | fuel + 1, d, c =>
    if c.atDocument then none
    else match c.peek with
      | none => none
      | some x =>
        if isGap x || isBreak x then
          let (f, c) := quotedGaps c.rest.length {} c
          quotedScalar single fuel (d.fold f) c
        else if single then
          if x == '\x27' then
            if c.peekAt 1 == some '\x27' then quotedScalar single fuel ('\x27' :: d) (c.skip 2)
            else some (d.reverse, c.skip 1)
          else quotedScalar single fuel (x :: d) (c.skip 1)
        else if x == '"' then some (d.reverse, c.skip 1)
        else if x == '\\' then
          if (c.peekAt 1).any isBreak then
            let (f, c) := quotedGaps c.rest.length { broken := true } (c.skip 1).skipBreak
            quotedScalar single fuel (d.fold f) c
          else match escaped? c with
            | some (y, c) => quotedScalar single fuel (y :: d) c
            | none => none
        else quotedScalar single fuel (x :: d) (c.skip 1)

def plainEnds (inFlow : Bool) (c : Cursor) (x : Char) : Bool :=
  (x == ':' && c.blankAt 1) ||
  (inFlow && (x == ',' || x == '[' || x == ']' || x == '\x7b' || x == '\x7d'))

/-- A colon that a flow collection does not allow inside a plain scalar. -/
def badColon (inFlow : Bool) (c : Cursor) (x : Char) : Bool :=
  inFlow && x == ':' &&
    (c.peekAt 1).any fun y => [',', '?', '[', ']', '\x7b', '\x7d'].contains y

/-- Consume blanks and breaks in a plain scalar; a tab must not take the place of indentation. -/
def plainGaps (indent : Nat) : Nat → Fold → Cursor → Option (Fold × Cursor)
  | 0, f, c => some (f, c)
  | fuel + 1, f, c => match c.peek with
    | none => some (f, c)
    | some x =>
      if isGap x then
        if f.broken && c.column < indent && x == '\t' then none
        else plainGaps indent fuel
          (if f.broken then f else { f with gaps := f.gaps ++ [x] }) (c.skip 1)
      else if isBreak x then plainGaps indent fuel (f.takeBreak c) c.skipBreak
      else some (f, c)

/-- A plain scalar; the flag tells whether a line break follows it. -/
def plainScalar (inFlow : Bool) (indent : Nat) : Nat → Done → Fold → Cursor →
    Option (List Char × Bool × Cursor)
  | 0, _, _, _ => none
  | fuel + 1, d, f, c =>
    let finish := some (d.reverse, f.broken, c)
    if c.atDocument then finish
    else match c.peek with
      | none => finish
      | some x =>
        if isGap x || isBreak x then
          match plainGaps indent c.rest.length {} c with
          | none => none
          | some (f, c) =>
            if !inFlow && c.column < indent then some (d.reverse, f.broken, c)
            else if c.isAt '#' then some (d.reverse, f.broken, c)
            else plainScalar inFlow indent fuel d f c
        else if badColon inFlow c x then none
        else if plainEnds inFlow c x then finish
        else plainScalar inFlow indent fuel (x :: d.fold f) {} (c.skip 1)

/-! ## Blocks -/

/-- The breaks at the end of a block: all dropped, one kept, or all kept. -/
inductive Chomp where
  | strip
  | clip
  | keep
  deriving DecidableEq

structure BlockHeader where
  chomp : Chomp := .clip
  indent : Option Nat := none

def nonzeroDigit? (c : Char) : Option Nat :=
  if '1' ≤ c && c ≤ '9' then some (c.toNat - 48) else none

def blockHeader? (c : Cursor) : Option (BlockHeader × Cursor) :=
  let chomp? := fun (c : Cursor) => match c.peek with
    | some '+' => some (Chomp.keep, c.skip 1)
    | some '-' => some (Chomp.strip, c.skip 1)
    | _ => none
  let indent? := fun (c : Cursor) => match c.peek with
    | some x => (nonzeroDigit? x).map (·, c.skip 1)
    | none => none
  if c.isAt '0' then none
  else match chomp? c with
    | some (m, c) =>
      if c.isAt '0' then none
      else match indent? c with
        | some (n, c) => some (⟨m, some n⟩, c)
        | none => some (⟨m, none⟩, c)
    | none => match indent? c with
      | some (n, c) => match chomp? c with
        | some (m, c) => some (⟨m, some n⟩, c)
        | none => some (⟨.clip, some n⟩, c)
      | none => some ({}, c)

/-- Consume the indentation of a block and its empty lines. With no indentation fixed yet, the
deepest one met is answered too. -/
def blockBreaks (indent : Option Nat) : Nat → Nat → List Char → Cursor →
    Option (Nat × List Char × Cursor)
  | 0, deepest, breaks, c => some (deepest, breaks, c)
  | fuel + 1, deepest, breaks, c =>
    let shallow := match indent with
      | none => true
      | some n => decide (c.column < n)
    match c.peek with
    | none => some (max deepest c.column, breaks, c)
    | some x =>
      if shallow && x == ' ' then blockBreaks indent fuel deepest breaks (c.skip 1)
      else if shallow && x == '\t' then none
      else if isBreak x then
        blockBreaks indent fuel (max deepest c.column) (breaks ++ c.breakText) c.skipBreak
      else some (max deepest c.column, breaks, c)

def blockLines (literal : Bool) (indent : Nat) : Nat → Done → List Char → List Char → Bool →
    Cursor → Option (Done × List Char × List Char × Cursor)
  | 0, d, first, more, _, c => some (d, first, more, c)
  | fuel + 1, d, first, more, gapBefore, c =>
    if c.column = indent && c.peek.isSome then
      let gapHere := c.peek.any isGap
      let joined :=
        if !literal && first == ['\n'] && !gapBefore && !gapHere then
          (if more.isEmpty then [' '] else more)
        else first ++ more
      let content := c.rest.takeWhile fun x => !isBreak x
      let c := c.skip content.length
      let d := content.reverse ++ (joined.reverse ++ d)
      let first := c.breakText
      let c := if c.peek.isSome then c.skipBreak else c
      match blockBreaks (some indent) (c.rest.length + 1) 0 [] c with
      | none => none
      | some (_, more, c) => blockLines literal indent fuel d first more gapHere c
    else some (d, first, more, c)

/-- A block scalar, from behind its `|` or `>`. `parent` is the indentation around it. -/
def blockScalar (literal : Bool) (parent : Option Nat) (c : Cursor) :
    Option (List Char × Cursor) := do
  let (h, c) ← blockHeader? c
  let c := c.skipGaps
  let c := if c.isAt '#' then c.skipLine else c
  if c.peek.any fun x => !isBreak x then none
  let c := if c.peek.isSome then c.skipBreak else c
  let fixed := h.indent.map fun n => parent.getD 0 + n
  let (deepest, more, c) ← blockBreaks fixed (c.rest.length + 1) 0 [] c
  let least := match parent with
    | some n => n + 1
    | none => 1
  let indent := fixed.getD (max deepest (max least 1))
  let (d, first, more, c) ← blockLines literal indent (c.rest.length + 1) [] [] more false c
  let ending := match h.chomp with
    | .strip => []
    | .clip => first
    | .keep => first ++ more
  some (d.reverse ++ ending, c)

end Tabular.Yaml
