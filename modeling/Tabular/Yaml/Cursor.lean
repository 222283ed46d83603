/-! # Cursors over YAML text

A cursor is the rest of a text with the line and column it stands at. Line breaks come in five
forms and are read as one character: a carriage return, a line feed, both, and the next line as a
line feed, and the two separators of Unicode as themselves.
-/
namespace Tabular.Yaml

def isBreak (c : Char) : Bool :=
  c == '\n' || c == '\r' || c == '\u0085' || c == '\u2028' || c == '\u2029'

def isGap (c : Char) : Bool := c == ' ' || c == '\t'

/-- Whether a character may occur in a text at all: no control character but tabs and breaks, and
no byte order mark. -/
def isAllowed (c : Char) : Bool :=
  let n := c.toNat
  n == 9 || n == 10 || n == 13 || (0x20 ≤ n && n ≤ 0x7E) || n == 0x85 ||
  (0xA0 ≤ n && n ≤ 0xD7FF) || (0xE000 ≤ n && n ≤ 0xFFFD && n != 0xFEFF) || 0x10000 ≤ n

structure Cursor where
  rest : List Char
  index : Nat := 0
  line : Nat := 0
  column : Nat := 0

namespace Cursor

def peek (c : Cursor) : Option Char := c.rest.head?

def peekAt (c : Cursor) (n : Nat) : Option Char := c.rest[n]?

def isAt (c : Cursor) (x : Char) : Bool := c.peek == some x

/-- Whether the text ends, or a blank or a break stands, `n` places further. -/
def blankAt (c : Cursor) (n : Nat) : Bool :=
  match c.peekAt n with
  | none => true
  | some x => isGap x || isBreak x

def skip (c : Cursor) (n : Nat) : Cursor :=
  { c with rest := c.rest.drop n, index := c.index + n, column := c.column + n }

def skipBreak (c : Cursor) : Cursor :=
  let n := match c.rest with
    | '\r' :: '\n' :: _ => 2
    | _ => 1
  { rest := c.rest.drop n, index := c.index + n, line := c.line + 1, column := 0 }

def breakText (c : Cursor) : List Char :=
  match c.rest with
  | '\u2028' :: _ => ['\u2028']
  | '\u2029' :: _ => ['\u2029']
  | [] => []
  | _ => ['\n']

def skipGaps (c : Cursor) : Cursor := c.skip (c.rest.takeWhile isGap).length

def skipLine (c : Cursor) : Cursor :=
  c.skip (c.rest.takeWhile fun x => !isBreak x).length

/-- Whether a document mark of three characters stands at the beginning of a line. -/
def atMark (c : Cursor) (mark : Char) : Bool :=
  c.column == 0 && c.rest.take 3 == [mark, mark, mark] && c.blankAt 3

def atDocument (c : Cursor) : Bool := c.atMark '-' || c.atMark '.'

end Cursor
end Tabular.Yaml
