import Tabular.Format

/-! # Command lines

A command line gives switches and plain arguments. A switch is named by `--` and a word, or by `-`
and a letter, and may take a value, which follows as the next argument or is attached to the name.
Letters may be joined, the last of them with its value. After `--` every argument is plain.

A value is looked at only when the next argument has been found acceptable, so of two mistakes an
unknown argument may win over a bad value in front of it.
-/
namespace Tabular.Command

/-- Why a command line is not carried out: it asks for help or the version, or it is wrong. -/
inductive Refusal where
  | help
  | version
  | nothingGiven
  | missingCommand
  | unknownCommand
  | unknownArgument
  | surplusValue
  | missingValue
  | badValue
  | repeated
  | missingArgument
  deriving DecidableEq, Repr

def Refusal.exitCode : Refusal → Nat
  | .help | .version => 0
  | _ => 2

def Refusal.message : Refusal → String
  | .help => "Usage: tabular [-v] infer PATH [options]\n" ++
      "       tabular [-v] convert [INPUT] [OUTPUT] [options]"
  | .version => "tabular 0.1.0"
  | .nothingGiven | .missingCommand => "error: a command is needed: infer, convert or help"
  | .unknownCommand => "error: unknown command"
  | .unknownArgument => "error: unexpected argument"
  | .surplusValue => "error: a value was given to a switch that takes none"
  | .missingValue => "error: a value is needed"
  | .badValue => "error: invalid value"
  | .repeated => "error: a switch was given more than once"
  | .missingArgument => "error: a required argument is missing"

inductive ValueKind where
  | character
  | count
  | format
  | path
  | text
  deriving DecidableEq, Repr

inductive Value where
  | character (c : Char)
  | count (n : Nat)
  | format (f : Format)
  | path (p : Path)
  | text (s : String)
  deriving DecidableEq, Repr

/-- Read a value; a path must not be empty. -/
def ValueKind.read (k : ValueKind) (s : String) : Except Refusal Value :=
  match k with
  | .character => match s.toList with
    | [c] => .ok (.character c)
    | _ => .error .badValue
  | .count => match Number.Decimal.nat64? s.toList with
    | some n => .ok (.count n)
    | none => .error .badValue
  | .format => match Format.parse s with
    | .ok f => .ok (.format f)
    | .error _ => .error .badValue
  | .path => if s.isEmpty then .error .missingValue else .ok (.path ⟨s⟩)
  | .text => .ok (.text s)

/-- A switch. It takes a value if `value` says of what kind, and it may be given more than once
if it is repeatable. Some switches only ask a question. -/
structure Switch where
  name : String
  letter : Option Char := none
  value : Option ValueKind := none
  repeatable : Bool := false
  asks : Option Refusal := none
  deriving DecidableEq, Repr

/-- What a command understands: its switches, and the plain arguments it takes, in order. -/
structure Grammar where
  switches : List Switch
  places : List Switch
  deriving Repr

def Grammar.named? (g : Grammar) (name : String) : Option Switch :=
  g.switches.find? (·.name == name)

def Grammar.lettered? (g : Grammar) (letter : Char) : Option Switch :=
  g.switches.find? (·.letter == some letter)

/-- A line being read: what was given so far, a switch whose value was not yet looked at or is
still to come, the plain arguments still expected, and whether all that follows is plain. -/
structure Line where
  given : List (String × Option Value) := []
  pending : Option (Switch × Option String) := none
  places : List Switch
  literal : Bool := false

namespace Line

def has (l : Line) (name : String) : Bool := l.given.any (·.1 == name)

def take (l : Line) (s : Switch) (v : Option String) : Except Refusal Line := do
  if let some r := s.asks then throw r
  let value ← match s.value, v with
    | none, _ => pure none
    | some _, none => throw .missingValue
    | some k, some text => pure (some (k, text))
  if !s.repeatable && l.has s.name then throw .repeated
  let read ← match value with
    | none => pure none
    | some (k, text) => (k.read text).map some
  return { l with given := l.given ++ [(s.name, read)] }

def settle (l : Line) : Except Refusal Line :=
  match l.pending with
  | none => .ok l
  | some (s, v) => { l with pending := none }.take s v

def await (l : Line) (s : Switch) (v : Option String) : Except Refusal Line := do
  return { (← l.settle) with pending := some (s, v) }

/-- A switch named by a word; a value is attached behind an equals sign. -/
def word (g : Grammar) (l : Line) (body : List Char) : Except Refusal Line :=
  let name := body.takeWhile (· != '=')
  let attached := match body.drop name.length with
    | [] => none
    | _ :: v => some (String.ofList v)
  match g.named? (String.ofList name) with
  | none => .error .unknownArgument
  | some s => match s.value, attached with
    | none, some _ => .error .surplusValue
    | some _, none => l.await s none
    | _, v => do (← l.settle).take s v

/-- Switches named by letters; what follows a letter that takes a value is that value, behind an
equals sign or not. -/
def letters (g : Grammar) (l : Line) : List Char → Except Refusal Line
  | [] => .ok l
  | c :: r => match g.lettered? c with
    | none => .error .unknownArgument
    | some s => match s.value, r with
      | none, _ => do letters g (← (← l.settle).take s none) r
      | some _, [] => l.await s none
      | some _, '=' :: v => do (← l.settle).take s (some (String.ofList v))
      | some _, v => do (← l.settle).take s (some (String.ofList v))

def plain (l : Line) (arg : String) : Except Refusal Line :=
  match l.places with
  | [] => .error .unknownArgument
  | p :: ps => do return { (← l.await p (some arg)) with places := ps }

/-- Read one argument. A lone dash is plain, and so is what a switch waits for. -/
def step (g : Grammar) (l : Line) (arg : String) : Except Refusal Line :=
  if l.literal then l.plain arg
  else match arg.toList with
    | ['-', '-'] => .ok { l with literal := true }
    | '-' :: '-' :: body => l.word g body
    | '-' :: c :: cs => l.letters g (c :: cs)
    | _ => match l.pending with
      | some (s, none) => .ok { l with pending := some (s, some arg) }
      | _ => l.plain arg

def read (g : Grammar) (args : List String) : Except Refusal Line := do
  (← args.foldlM (step g) { places := g.places }).settle

def value? (l : Line) (name : String) : Option Value := (l.given.lookup name).join

def count? (l : Line) (name : String) : Option Nat :=
  match l.value? name with
  | some (.count n) => some n
  | _ => none

def path? (l : Line) (name : String) : Option Path :=
  match l.value? name with
  | some (.path p) => some p
  | _ => none

def format? (l : Line) (name : String) : Option Format :=
  match l.value? name with
  | some (.format f) => some f
  | _ => none

def character? (l : Line) (name : String) : Option Char :=
  match l.value? name with
  | some (.character c) => some c
  | _ => none

def texts (l : Line) (name : String) : List String :=
  l.given.filterMap fun (n, v) => match v with
    | some (.text s) => if n == name then some s else none
    | _ => none

end Line
end Tabular.Command
