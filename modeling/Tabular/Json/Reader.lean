import Tabular.Json.Value

/-! # Reading JSON

A strict reader: one value with blanks around it and nothing else, strings without raw control
characters and without lone surrogates, at most 127 arrays and objects inside one another.
`Json.parse?` reads a whole text; `Json.readValue?` reads one value and answers what follows it.
-/
namespace Tabular.Json

def isSpace (c : Char) : Bool := c == ' ' || c == '\t' || c == '\n' || c == '\r'

def hexDigit? (c : Char) : Option Nat :=
  if '0' ≤ c && c ≤ '9' then some (c.toNat - 48)
  else if 'a' ≤ c && c ≤ 'f' then some (c.toNat - 87)
  else if 'A' ≤ c && c ≤ 'F' then some (c.toNat - 55)
  else none

def hex4? : List Char → Option (Nat × List Char)
  | a :: b :: c :: d :: r =>
    match hexDigit? a, hexDigit? b, hexDigit? c, hexDigit? d with
    | some a, some b, some c, some d => some (((a * 16 + b) * 16 + c) * 16 + d, r)
    | _, _, _, _ => none
  | _ => none

def shortEscape? : Char → Option Char
  | '"' => some '"'
  | '\\' => some '\\'
  | '/' => some '/'
  | 'b' => some '\x08'
  | 'f' => some '\x0c'
  | 'n' => some '\n'
  | 'r' => some '\r'
  | 't' => some '\t'
  | _ => none

/-- The character after `\u`: four digits, or a high and a low surrogate. -/
def codePoint? (cs : List Char) : Option (Char × List Char) :=
  match hex4? cs with
  | none => none
  | some (n, r) =>
    if 0xD800 ≤ n && n < 0xDC00 then
      match r with
      | '\\' :: 'u' :: r => match hex4? r with
        | some (m, r) =>
          if 0xDC00 ≤ m && m < 0xE000 then
            some (Char.ofNat (0x10000 + (n - 0xD800) * 1024 + (m - 0xDC00)), r)
          else none
        | none => none
      | _ => none
    else if 0xDC00 ≤ n && n < 0xE000 then none
    else some (Char.ofNat n, r)

/-- The characters of a string up to its closing quote; `done` holds them in reverse. -/
def stringBody (done : List Char) : Nat → List Char → Option (String × List Char)
  | 0, _ => none
  | fuel + 1, cs => match cs with
    | [] => none
    | '"' :: r => some (String.ofList done.reverse, r)
    | '\\' :: 'u' :: r => match codePoint? r with
      | some (c, r) => stringBody (c :: done) fuel r
      | none => none
    | '\\' :: e :: r => match shortEscape? e with
      | some c => stringBody (c :: done) fuel r
      | none => none
    | c :: r => if c.toNat < 0x20 || c == '\\' then none else stringBody (c :: done) fuel r

def digits1? (cs : List Char) : Option (List Char × List Char) :=
  let ds := cs.takeWhile Char.isDigit
  if ds.isEmpty then none else some (ds, cs.dropWhile Char.isDigit)

def whole? (cs : List Char) : Option (List Char × List Char) :=
  match cs with
  | '0' :: r => some (['0'], r)
  | _ => digits1? cs

def fraction? (cs : List Char) : Option (List Char × List Char) :=
  match cs with
  | '.' :: r => (digits1? r).map fun (ds, r) => ('.' :: ds, r)
  | _ => some ([], cs)

def exponent? (cs : List Char) : Option (List Char × List Char) :=
  match cs with
  | e :: r =>
    if e == 'e' || e == 'E' then
      match r with
      | '+' :: r => (digits1? r).map fun (ds, r) => (e :: '+' :: ds, r)
      | '-' :: r => (digits1? r).map fun (ds, r) => (e :: '-' :: ds, r)
      | _ => (digits1? r).map fun (ds, r) => (e :: ds, r)
    else some ([], cs)
  | [] => some ([], cs)

def number? (cs : List Char) : Option (String × List Char) := do
  let (sign, cs) := match cs with
    | '-' :: r => (['-'], r)
    | _ => ([], cs)
  let (w, cs) ← whole? cs
  let (f, cs) ← fraction? cs
  let (e, cs) ← exponent? cs
  some (String.ofList (sign ++ w ++ f ++ e), cs)

mutual

/-- A value, after blanks; `depth` counts the arrays and objects that may still open. -/
def readValue? (fuel depth : Nat) (cs : List Char) : Option (Json × List Char) :=
  match fuel with
  | 0 => none
  | fuel + 1 => match cs.dropWhile isSpace with
    | 'n' :: 'u' :: 'l' :: 'l' :: r => some (.null, r)
    | 't' :: 'r' :: 'u' :: 'e' :: r => some (.bool true, r)
    | 'f' :: 'a' :: 'l' :: 's' :: 'e' :: r => some (.bool false, r)
    | '"' :: r => (stringBody [] fuel r).map fun (s, r) => (.string s, r)
    | '[' :: r =>
      if depth ≤ 1 then none
      else match r.dropWhile isSpace with
        | ']' :: r => some (.array [], r)
        | r => readItems? fuel (depth - 1) [] r
    | '\x7b' :: r =>
      if depth ≤ 1 then none
      else match r.dropWhile isSpace with
        | '\x7d' :: r => some (.object [], r)
        | r => readMembers? fuel (depth - 1) [] r
    | r => (number? r).map fun (s, r) => (.number s, r)

def readItems? (fuel depth : Nat) (done : List Json) (cs : List Char) : Option (Json × List Char) :=
  match fuel with
  | 0 => none
  | fuel + 1 => match readValue? fuel depth cs with
    | none => none
    | some (v, r) => match r.dropWhile isSpace with
      | ',' :: r => readItems? fuel depth (v :: done) r
      | ']' :: r => some (.array (v :: done).reverse, r)
      | _ => none

def readMembers? (fuel depth : Nat) (done : List (String × Json)) (cs : List Char) :
    Option (Json × List Char) :=
  match fuel with
  | 0 => none
  | fuel + 1 => match cs.dropWhile isSpace with
    | '"' :: r => match stringBody [] fuel r with
      | none => none
      | some (k, r) => match r.dropWhile isSpace with
        | ':' :: r => match readValue? fuel depth r with
          | none => none
          | some (v, r) => match r.dropWhile isSpace with
            | ',' :: r => readMembers? fuel depth ((k, v) :: done) r
            | '\x7d' :: r => some (.object ((k, v) :: done).reverse, r)
            | _ => none
        | _ => none
    | _ => none

end

/-- Arrays and objects inside one another, the outermost included, stay below this. -/
def depthLimit : Nat := 128

def parse? (cs : List Char) : Option Json :=
  match readValue? (2 * cs.length + 2) depthLimit cs with
  | some (v, r) => if r.all isSpace then some v else none
  | none => none

end Tabular.Json
