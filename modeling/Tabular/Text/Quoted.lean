import Tabular.Text.Printable

/-! # Quoted texts in messages

Messages show a raw value between quotes, with everything escaped that would be invisible or
misread: the quote itself, backslashes, line breaks, tabs, and hidden characters by number.
-/
namespace Tabular.Text

def hexDigits (n : Nat) : List Char := Nat.toDigits 16 n

/-- A character inside a quoted text whose quote is `mark`. -/
def escapeShown (mark c : Char) : List Char :=
  if c == '\x00' then ['\\', '0']
  else if c == '\t' then ['\\', 't']
  else if c == '\r' then ['\\', 'r']
  else if c == '\n' then ['\\', 'n']
  else if c == '\\' || c == mark then ['\\', c]
  else if isHidden c then '\\' :: 'u' :: '\x7b' :: (hexDigits c.toNat ++ ['\x7d'])
  else [c]

def quoted (s : String) : String :=
  String.ofList ('"' :: (s.toList.flatMap (escapeShown '"') ++ ['"']))

def quotedChar (c : Char) : String :=
  String.ofList ('\x27' :: (escapeShown '\x27' c ++ ['\x27']))

end Tabular.Text
