import Tabular.Source.Basic
import Tabular.Sink.Memory

/-! # Endpoints of a run

A call of an endpoint need not return at once: it may wait for something else in the run, fire
the caller's token, or never return. `Pullable` and `Pushable` say how such an endpoint is asked
whether a call that was begun has come to an end. The counters are what calls can wait for.
-/
namespace Tabular.Transfer

structure Counters where
  reads : Nat := 0
  entered : Nat := 0
  written : Nat := 0
  deriving DecidableEq, Repr, Inhabited

inductive CallEnd (α : Type) where
  | returns (a : α)
  | panics (text : String)

inductive Poll (α σ : Type) where
  | waits
  | observes (s : σ)
  | fires (s : σ)
  | ends (fires : Bool) (how : CallEnd α) (counters : Counters) (s : σ)

class Pullable (σ : Type) where
  begin : Counters → σ → Counters × σ
  poll : Counters → σ → Poll (Except Error (Option Batch)) σ
  close : σ → Option Error × σ
  size : σ → Nat

class Pushable (κ : Type) where
  begin : Counters → κ → Counters × κ
  poll : Counters → κ → Batch → Poll (Except Error Unit) κ
  close : κ → Option Error × κ

/-- The reads of a plain source return at once. Only when the caller is cancelled while records
are read does the read not return any more, and then the source is left closed. -/
instance : Pullable Source where
  begin c s := (c, s)
  poll c s := match s with
    | .delimited d =>
      let (r, d, fired) := d.readWatching
      if fired then .fires (.delimited d.close) else .ends false (.returns r) c (.delimited d)
    | s => let (r, s) := s.read; .ends false (.returns r) c s
  close s := (none, s.close)
  size
    | .memory m => m.batches.length
    | .delimited d => (d.records.map List.length).getD 0
    | .feed f => (f.items.map List.length).getD 0

instance : Pushable MemorySink where
  begin c s := (c, s)
  poll c s b := let (r, s) := s.write b; .ends false (.returns r) c s
  close s := (none, s.close)

end Tabular.Transfer
