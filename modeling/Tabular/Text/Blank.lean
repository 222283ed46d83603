/-! # Blank characters

A value counts as blank when every character of it has the Unicode property White_Space.
This module holds that class and the trimming it induces on texts.
-/
namespace Tabular.Text

/-- The property White_Space: 25 characters, six of them ASCII. -/
def isBlank (c : Char) : Bool :=
  let n := c.toNat
  (9 ≤ n && n ≤ 13) || n == 0x20 || n == 0x85 || n == 0xA0 || n == 0x1680 ||
  (0x2000 ≤ n && n ≤ 0x200A) || n == 0x2028 || n == 0x2029 || n == 0x202F || n == 0x205F ||
  n == 0x3000

def trimStart (cs : List Char) : List Char := cs.dropWhile isBlank

def trimEnd (cs : List Char) : List Char := (cs.reverse.dropWhile isBlank).reverse

def trim (cs : List Char) : List Char := trimEnd (trimStart cs)

def strip (s : String) : String := String.ofList (trim s.toList)

/-- Whether a text holds nothing but blanks; the empty text does. -/
def allBlank (s : String) : Bool := s.toList.all isBlank

end Tabular.Text
