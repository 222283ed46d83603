import Tabular.Transfer.Endpoint

/-! # Scripted endpoints

Endpoints that do what a script says, one entry for each call. An entry first waits until the
counters of the run have come far enough, then may have the reads begun so far noted once nothing
else moves, then may fire the caller's token, and last stalls, panics, fails or succeeds.
-/
namespace Tabular.Transfer

inductive Act (α : Type) where
  | stalls
  | panics (text : String)
  | fails (text : String)
  | gives (a : α)

structure Entry (α : Type) where
  after : Counters := {}
  observes : Bool := false
  cancels : Bool := false
  act : Act α

def Entry.ready {α : Type} (e : Entry α) (c : Counters) : Bool :=
  e.after.reads ≤ c.reads && e.after.entered ≤ c.entered && e.after.written ≤ c.written

def Entry.poll {α β σ : Type} (e : Entry α) (c : Counters) (fault : String → Error)
    (noted fired : σ) (finish : α → β × Counters × σ) (s : σ) : Poll (Except Error β) σ :=
  if !e.ready c then .waits
  else if e.observes then .observes noted
  else match e.act with
    | .stalls => if e.cancels then .fires fired else .waits
    | .panics text => .ends e.cancels (.panics text) c s
    | .fails text => .ends e.cancels (.returns (.error (fault text))) c s
    | .gives a => let (b, c, s) := finish a; .ends e.cancels (.returns (.ok b)) c s

structure ScriptedSource where
  script : List (Entry (Option Batch))
  call : Entry (Option Batch) := { act := .gives none }
  closeFault : Option String := none
  closes : Nat := 0

instance : Pullable ScriptedSource where
  begin c s :=
    let c := { c with reads := c.reads + 1 }
    match s.script with
    | e :: es => (c, { s with script := es, call := e })
    | [] => (c, { s with call := { act := .gives none } })
  poll c s :=
    s.call.poll c (fun t => .source (.described t))
      { s with call := { s.call with observes := false } }
      { s with call := { s.call with cancels := false } } (fun b => (b, c, s)) s
  close s := (s.closeFault.map fun t => .source (.described t), { s with closes := s.closes + 1 })
  size s := s.script.length

/-- A sink that follows a script and then takes everything. `written` holds the batches whose
write succeeded, the last one first. -/
structure ScriptedSink where
  script : List (Entry Unit)
  call : Entry Unit := { act := .gives () }
  closeFault : Option String := none
  closes : Nat := 0
  written : List Batch := []

instance : Pushable ScriptedSink where
  begin c s :=
    let c := { c with entered := c.entered + 1 }
    match s.script with
    | e :: es => (c, { s with script := es, call := e })
    | [] => (c, { s with call := { act := .gives () } })
  poll c s b :=
    s.call.poll c (fun t => .sink (.described t))
      { s with call := { s.call with observes := false } }
      { s with call := { s.call with cancels := false } }
      (fun _ => ((), { c with written := c.written + 1 }, { s with written := b :: s.written })) s
  close s := (s.closeFault.map fun t => .sink (.described t), { s with closes := s.closes + 1 })

end Tabular.Transfer
