import Tabular.Command.Line
import Tabular.Config.Basic

/-! # Commands

The two commands and what their arguments say. What is given on the command line is laid over
options and settings that come from elsewhere: it replaces what it names, null values are added,
and a flag only switches something off.
-/
namespace Tabular

/-- Lay a path and a format over an endpoint. A path brings an endpoint of its own with it, whose
format is not set. -/
def Endpoint.override (e : Endpoint) (path : Option Path) (format : Option Format) : Endpoint :=
  let base : Endpoint := match path with
    | some p => { path := p }
    | none => e
  { base with format := format.or base.format }

namespace Command

structure ReadingFlags where
  delimiter : Option Char := none
  noHeader : Bool := false
  nullValues : List String := []
  keepEmpty : Bool := false
  timestampFormat : Option String := none
  maxRows : Option Nat := none
  workers : Option Nat := none
  deriving DecidableEq, Repr

def ReadingFlags.apply (f : ReadingFlags) (o : Options) : Options :=
  { o with
    delimiter := f.delimiter.or o.delimiter
    hasHeader := !f.noHeader && o.hasHeader
    nullValues := o.nullValues ++ f.nullValues
    emptyAsNull := !f.keepEmpty && o.emptyAsNull
    timestampFormat := f.timestampFormat.or o.timestampFormat
    maxRows := f.maxRows.getD o.maxRows
    workers := f.workers.or o.workers }

@[simp] theorem ReadingFlags.apply_none (o : Options) : ReadingFlags.apply {} o = o := by
  cases o
  simp [apply]

structure InferArguments where
  path : Path
  reading : ReadingFlags := {}
  deriving DecidableEq, Repr

structure ConvertArguments where
  input : Option Path := none
  output : Option Path := none
  inputFormat : Option Format := none
  outputFormat : Option Format := none
  queueCapacity : Option Nat := none
  progressInterval : Option Nat := none
  config : Option Path := none
  reading : ReadingFlags := {}
  deriving DecidableEq, Repr

def ConvertArguments.apply (a : ConvertArguments) (c : Config) : Config :=
  { c with
    source := c.source.override a.input a.inputFormat
    sink := c.sink.override a.output a.outputFormat
    transfer := {
      queueCapacity := a.queueCapacity.getD c.transfer.queueCapacity
      progressInterval := a.progressInterval.getD c.transfer.progressInterval }
    inference := a.reading.apply c.inference }

/-- The settings that arguments come to: those of a file, if one is named, else the two paths with
every setting at its default, and the arguments laid over them. -/
def ConvertArguments.settings (load : Path → Except Error Config) (a : ConvertArguments) :
    Except Error Config := do
  let base ← match a.config, a.input, a.output with
    | some p, _, _ => load p
    | none, some i, some o => pure { source := { path := i }, sink := { path := o } }
    | none, _, _ => throw (.validation .missingPaths)
  let c := a.apply base
  c.validate
  return c

inductive Action where
  | infer (a : InferArguments)
  | convert (a : ConvertArguments)
  deriving DecidableEq, Repr

structure Invocation where
  verbose : Bool
  action : Action
  deriving DecidableEq, Repr

/-! ## Grammars -/

def commonSwitches : List Switch := [
  { name := "verbose", letter := some 'v' },
  { name := "help", letter := some 'h', asks := some .help }]

def readingSwitches : List Switch := [
  { name := "delimiter", letter := some 'd', value := some .character },
  { name := "no-header" },
  { name := "null", value := some .text, repeatable := true },
  { name := "keep-empty" },
  { name := "timestamp-format", value := some .text },
  { name := "max-rows", value := some .count },
  { name := "workers", value := some .count }]

def topGrammar : Grammar := {
  switches := commonSwitches ++ [{ name := "version", letter := some 'V', asks := some .version }]
  places := [] }

def inferGrammar : Grammar := {
  switches := commonSwitches ++ readingSwitches
  places := [{ name := "path", value := some .path }] }

def convertGrammar : Grammar := {
  switches := commonSwitches ++ readingSwitches ++ [
    { name := "from", value := some .format },
    { name := "to", value := some .format },
    { name := "queue-capacity", value := some .count },
    { name := "progress-interval", value := some .count },
    { name := "config", letter := some 'c', value := some .path }]
  places := [{ name := "input", value := some .path }, { name := "output", value := some .path }] }

/-! ## Reading arguments -/

def ReadingFlags.ofLine (l : Line) : ReadingFlags := {
  delimiter := l.character? "delimiter"
  noHeader := l.has "no-header"
  nullValues := l.texts "null"
  keepEmpty := l.has "keep-empty"
  timestampFormat := (l.texts "timestamp-format").head?
  maxRows := l.count? "max-rows"
  workers := l.count? "workers" }

def commandNames : List String := ["infer", "convert", "help"]

def readCommand (name : String) (args : List String) : Except Refusal (Action × Line) :=
  match name with
  | "infer" => do
    let l ← Line.read inferGrammar args
    match l.path? "path" with
    | some path => return (.infer { path, reading := .ofLine l }, l)
    | none => throw .missingArgument
  | "convert" => do
    let l ← Line.read convertGrammar args
    let a : ConvertArguments := {
      input := l.path? "input", output := l.path? "output"
      inputFormat := l.format? "from", outputFormat := l.format? "to"
      queueCapacity := l.count? "queue-capacity"
      progressInterval := l.count? "progress-interval"
      config := l.path? "config", reading := .ofLine l }
    return (.convert a, l)
  | _ => match args with
    | [] => throw .help
    | [topic] => throw (if commandNames.contains topic then .help else .unknownCommand)
    | _ => throw .unknownCommand

def readFrom (l : Line) : List String → Except Refusal Invocation
  | [] => .error (if l.given.isEmpty then .nothingGiven else .missingCommand)
  | arg :: args =>
    if !l.literal && commandNames.contains arg then do
      let (action, inner) ← readCommand arg args
      return { verbose := l.has "verbose" || inner.has "verbose", action }
    else if l.literal || arg == "-" || !arg.toList.head?.any (· == '-') then
      .error (if l.literal && commandNames.contains arg then .unknownArgument else .unknownCommand)
    else do readFrom (← l.step topGrammar arg) args

def Invocation.ofArguments (args : List String) : Except Refusal Invocation :=
  readFrom { places := [] } args

end Command
end Tabular
