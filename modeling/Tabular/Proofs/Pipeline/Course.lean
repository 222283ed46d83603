import Tabular.Pipeline
import Tabular.Proofs.Transfer.Moves

/-! # The courses of a pipeline

A pipeline can run in many ways: the workers of its inference and of its transfer interleave, and
the caller may cancel at any moment. A course fixes all of this. What the ends of the transfer
answer is no part of it: a read gives what the source has, a write and the closing of the sink what
the sink makes of it, and the source closes without an error.
-/
namespace Tabular
open Transfer (Event Run Scene)

/-- Batches that a sink takes one after the other before it is closed. -/
inductive FileSink.Takes : FileSink → List Batch → FileSink → Prop
  | closes {sink sink'} (h : sink.close = (.ok (), sink')) : Takes sink [] sink'
  | takes {sink sink' last b bs} (h : sink.write b = (.ok (), sink'))
    (hrest : Takes sink' bs last) : Takes sink (b :: bs) last

/-- Whether an event is a move of the caller or of the run, to which neither end has an answer. -/
def Transfer.Event.unanswered : Event → Bool
  | .callerCancels | .readStarts | .sends | .pullerStops | .receives | .writeStarts
  | .pusherStops | .joins => true
  | _ => false

def errorOf? : Except Error Unit → Option Error
  | .ok _ => none
  | .error e => some e

namespace Transfer.Scene

/-- A transfer goes on by an event, and its ends answer for themselves. -/
inductive Goes (s : Scene Source FileSink) : Event → Scene Source FileSink → Prop
  | moves {e run} (he : e.unanswered = true) (hr : s.run.step e = some run) :
    Goes s e { s with run }
  | reads {run} (hr : s.run.step (.readReturns s.source.read.1) = some run) :
    Goes s (.readReturns s.source.read.1) { s with run, source := s.source.read.2 }
  | writes {b run} (hb : s.run.pusher = .writing b)
    (hr : s.run.step (.writeReturns (s.sink.write b).1) = some run) :
    Goes s (.writeReturns (s.sink.write b).1) { s with run, sink := (s.sink.write b).2 }
  | closesSource {run} (hr : s.run.step (.sourceCloses none) = some run) :
    Goes s (.sourceCloses none) { s with run, source := s.source.close }
  | closesSink {run} (hr : s.run.step (.sinkCloses (errorOf? s.sink.close.1)) = some run) :
    Goes s (.sinkCloses (errorOf? s.sink.close.1)) { s with run, sink := s.sink.close.2 }

inductive Along (s : Scene Source FileSink) : List Event → Scene Source FileSink → Prop
  | nil : Along s [] s
  | snoc {es s₁ e s'} (h : Along s es s₁) (hg : s₁.Goes e s') : Along s (es ++ [e]) s'

variable {s s₁ s' : Scene Source FileSink} {e : Event} {es fs : List Event}

theorem Goes.step (h : s.Goes e s') : s.run.step e = some s'.run := by
  cases h <;> assumption

theorem Along.steps (h : s.Along es s') : s.run.steps es = some s'.run := by
  induction h with
  | nil => rfl
  | snoc _ hg ih => rw [Run.steps_concat, ih, Option.bind_some, hg.step]

theorem Along.single (h : s.Goes e s') : s.Along [e] s' := .snoc .nil h

theorem Along.trans (h : s.Along es s₁) (h' : s₁.Along fs s') : s.Along (es ++ fs) s' := by
  induction h' with
  | nil => rwa [List.append_nil]
  | snoc _ hg ih =>
    rw [← List.append_assoc]
    exact .snoc ih hg

/-- What a transfer keeps by each event it keeps along all of them. -/
theorem Along.keeps {P : Scene Source FileSink → Prop} (h : s.Along es s') (hs : P s)
    (step : ∀ {s e s'}, P s → Goes s e s' → P s') : P s' := by
  induction h with
  | nil => exact hs
  | snoc _ hg ih => exact step ih hg

end Transfer.Scene

namespace Pipeline
open Delimited (Reading)

/-- One way for a pipeline to run: when the caller cancels before the transfer begins, if at all,
how the workers of the inference interleave, and what happens in the transfer. -/
structure Course where
  /-- Whether the caller has cancelled from the start. -/
  cancelled : Bool := false
  /-- The number of the request for a record during which the caller cancels. -/
  whileSampling : Option Nat := none
  /-- Whether the caller cancels after the inference and before the transfer. -/
  whileOpening : Bool := false
  moves : List Inference.Move := []
  events : List Event := []

def Course.fired (k : Course) : Bool := k.cancelled || k.whileSampling.isSome || k.whileOpening

def Course.Quiet (k : Course) : Prop := k.fired = false ∧ Event.callerCancels ∉ k.events

/-- A stream during whose request of a number the caller cancels. -/
def interrupted (n : Option Nat) (rs : List Reading) : List Reading :=
  match n with
  | none => rs
  | some n => rs.modify n fun r => { r with fired := true }

/-- Open the source of an endpoint along a course. There is no answer unless the moves of the course
bring the workers of the inference to their end. -/
def openAlong (t : FileTree) (e : Endpoint) (o : Options) (s : Inference.Surroundings)
    (k : Course) : Option (Except Error Source) :=
  match e.resolve with
  | .error err => some (.error err)
  | .ok .csv =>
    let o := o.forPath e.path
    match t.openEntry e.path with
    | .error err => some (.error err)
    | .ok entry => match Inference.check o k.cancelled with
      | .error err => some (.error err)
      | .ok delimiter =>
        let rs := interrupted k.whileSampling (Delimited.readings delimiter entry.chunks)
        (Inference.inferRecordsAlong o s k.moves rs).map fun inferred => do
          let outcome ← inferred
          return .delimited (← DelimitedSource.ofPath t outcome.schema o e.path)
  | .ok _ => some (Source.ofEndpoint t e o s k.cancelled)

def engine (c : Config) (source : Source) (sink : FileSink) : Transfer.Engine Source FileSink :=
  (Transfer.Engine.ofEndpoints source sink).withSettings c.transfer

def opening (c : Config) (k : Course) (source : Source) (sink : FileSink) :
    Scene Source FileSink :=
  { run := .start c.transfer.queueCapacity k.fired, source, sink }

/-- What a pipeline comes to along a course, its sizes being within the limits of the machine. -/
inductive RunsTo (t : FileTree) (c : Config) (s : Surroundings) (k : Course) : Outcome → Prop
  | refused {err} (h : c.validate = .error err) : RunsTo t c s k ⟨.error err,t⟩
  | unopened {err} (hv : c.validate = .ok ())
    (h : openAlong t c.source c.inference s.inference k = some (.error err)) :
    RunsTo t c s k ⟨.error err,t⟩
  | uncreated {source err after} (hv : c.validate = .ok ())
    (hs : openAlong t c.source c.inference s.inference k = some (.ok source))
    (h : FileSink.ofEndpoint t c.sink source.layout c.parquet = (.error err, after)) :
    RunsTo t c s k ⟨.error err,after⟩
  | transferred {source sink after last result rest} (hv : c.validate = .ok ())
    (hs : openAlong t c.source c.inference s.inference k = some (.ok source))
    (hk : FileSink.ofEndpoint t c.sink source.layout c.parquet = (.ok sink, after))
    (ha : (opening c k (settled t c.source.path sink.location source) sink).Along k.events last)
    (h : (engine c (settled t c.source.path sink.location source) sink).startAlong k.fired k.events
      s.startedAt s.finishedAt = some (result, rest)) :
    RunsTo t c s k ⟨result,last.sink.save after⟩

end Pipeline
end Tabular
