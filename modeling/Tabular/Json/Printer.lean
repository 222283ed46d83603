import Tabular.Json.Value

/-! # Writing JSON

Two layouts: on one line without any blank, and over several lines with two blanks for each
level. Quotes, backslashes and control characters are escaped, all else is written as it is.
-/
namespace Tabular.Json

def hexChar (n : Nat) : Char := if n < 10 then Char.ofNat (48 + n) else Char.ofNat (87 + n)

def escape (c : Char) : List Char :=
  if c == '"' then ['\\', '"']
  else if c == '\\' then ['\\', '\\']
  else if c == '\n' then ['\\', 'n']
  else if c == '\r' then ['\\', 'r']
  else if c == '\t' then ['\\', 't']
  else if c == '\x08' then ['\\', 'b']
  else if c == '\x0c' then ['\\', 'f']
  else if c.toNat < 0x20 then
    ['\\', 'u', '0', '0', hexChar (c.toNat / 16), hexChar (c.toNat % 16)]
  else [c]

def quote (s : String) : String :=
  String.ofList ('"' :: (s.toList.flatMap escape ++ ['"']))

mutual

def compact : Json → String
  | .null => "null"
  | .bool true => "true"
  | .bool false => "false"
  | .number t => t
  | .string s => quote s
  | .array xs => "[" ++ ",".intercalate (compactItems xs) ++ "]"
  | .object ms => "\x7b" ++ ",".intercalate (compactMembers ms) ++ "\x7d"

def compactItems : List Json → List String
  | [] => []
  | x :: xs => compact x :: compactItems xs

def compactMembers : List (String × Json) → List String
  | [] => []
  | (k, v) :: ms => (quote k ++ ":" ++ compact v) :: compactMembers ms

end

def breakLine (level : Nat) : String := String.ofList ('\n' :: List.replicate (2 * level) ' ')

def block (opening closing : String) (level : Nat) (items : List String) : String :=
  if items.isEmpty then opening ++ closing
  else
    opening ++ breakLine (level + 1) ++ ("," ++ breakLine (level + 1)).intercalate items ++
      breakLine level ++ closing

mutual

/-- A value over several lines, its first line at `level`. -/
def prettyAt (level : Nat) : Json → String
  | .array xs => block "[" "]" level (prettyItems level xs)
  | .object ms => block "\x7b" "\x7d" level (prettyMembers level ms)
  | .null => "null"
  | .bool b => if b then "true" else "false"
  | .number t => t
  | .string s => quote s

def prettyItems (level : Nat) : List Json → List String
  | [] => []
  | x :: xs => prettyAt (level + 1) x :: prettyItems level xs

def prettyMembers (level : Nat) : List (String × Json) → List String
  | [] => []
  | (k, v) :: ms => (quote k ++ ": " ++ prettyAt (level + 1) v) :: prettyMembers level ms

end

def pretty (v : Json) : String := prettyAt 0 v

end Tabular.Json
