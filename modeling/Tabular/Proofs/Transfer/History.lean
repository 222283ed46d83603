import Tabular.Proofs.Transfer.Moves

/-! # What has happened in a run

Views of a list of events: the batches that reads gave and writes took, the calls of the source,
and the errors met. They are read off the events and not off the counts and slots that a run keeps,
so that these can be compared with them.
-/
namespace Tabular.Transfer

theorem filterMap_concat {α β : Type} (f : α → Option β) (xs : List α) (x : α) :
    (xs ++ [x]).filterMap f = xs.filterMap f ++ (f x).toList := by
  cases h : f x <;> simp [h]

namespace Event

def batchRead? : Event → Option Batch
  | readReturns (.ok (some b)) => some b
  | _ => none

def ofRead : Event → Bool
  | readStarts | readReturns _ | readPanics _ => true
  | _ => false

/-- The failure that a worker records when an event happens. -/
def failure? : Event → Option Failure
  | readReturns (.error cause) => some (.pull, cause)
  | writeReturns (.error cause) => some (.push, cause)
  | _ => none

def pullerPanic? : Event → Option Failure
  | readPanics text => some (.pull, .taskFailed "Puller" text)
  | _ => none

def pusherPanic? : Event → Option Failure
  | writePanics text => some (.push, .taskFailed "Pusher" text)
  | _ => none

def sourceCloseError? : Event → Option Error
  | sourceCloses error => error
  | _ => none

def sinkCloseError? : Event → Option Error
  | sinkCloses error => error
  | _ => none

end Event

def batchesReadIn (es : List Event) : List Batch := es.filterMap Event.batchRead?

def readCallsIn (es : List Event) : List Event := es.filter Event.ofRead

/-- The failures of workers in the order in which they are recorded: errors as they come, then a
panic of the puller, then one of the pusher. -/
def failuresIn (es : List Event) : List Failure :=
  es.filterMap Event.failure? ++ es.filterMap Event.pullerPanic? ++ es.filterMap Event.pusherPanic?

/-- The errors on closing, that of the source before that of the sink. -/
def closeErrorsIn (es : List Event) : List Error :=
  es.filterMap Event.sourceCloseError? ++ es.filterMap Event.sinkCloseError?

/-- Whether the caller's token has fired, before the run or in it. -/
def CallerFiredIn (cancelled : Bool) (es : List Event) : Prop :=
  cancelled = true ∨ .callerCancels ∈ es

namespace Run

def batchWritten? (r : Run) : Event → Option Batch
  | .writeReturns (.ok _) => match r.pusher with
    | .writing b => some b
    | _ => none
  | _ => none

/-- The batches whose writes succeed along events from a run on, in order. -/
def batchesWrittenIn (r : Run) : List Event → List Batch
  | [] => []
  | e :: es => (r.batchWritten? e).toList ++ match r.step e with
    | some next => next.batchesWrittenIn es
    | none => []

/-- What a view of single events shows along events from a run on, in order. -/
def along {α : Type} (view : Run → Event → Option α) (r : Run) : List Event → List α
  | [] => []
  | e :: es => (view r e).toList ++ match r.step e with
    | some next => next.along view es
    | none => []

theorem along_append {α : Type} {view : Run → Event → Option α} {r₀ r : Run} {es : List Event}
    (h : r₀.steps es = some r) (fs : List Event) :
    r₀.along view (es ++ fs) = r₀.along view es ++ r.along view fs := by
  induction es generalizing r₀ with
  | nil =>
    cases h
    rfl
  | cons e es ih =>
    simp only [steps, List.foldlM_cons, Option.bind_eq_bind, Option.bind_eq_some_iff] at h
    obtain ⟨r₁,he,hr⟩ := h
    have hrest := ih hr
    simp only [List.cons_append, along, he, hrest, List.append_assoc]

theorem along_concat {α : Type} {view : Run → Event → Option α} {r₀ r : Run} {es : List Event}
    (h : r₀.steps es = some r) (e : Event) :
    r₀.along view (es ++ [e]) = r₀.along view es ++ (view r e).toList := by
  rw [along_append h]
  cases hs : r.step e <;> simp [along, hs]

theorem batchesWrittenIn_eq_along (r : Run) (es : List Event) :
    r.batchesWrittenIn es = r.along batchWritten? es := by
  induction es generalizing r with
  | nil => rfl
  | cons e es ih =>
    rw [batchesWrittenIn, along]
    cases hs : r.step e with
    | none => rfl
    | some next => exact congrArg _ (ih next)

theorem batchesWrittenIn_concat {r₀ r : Run} {es : List Event} (h : r₀.steps es = some r)
    (e : Event) :
    r₀.batchesWrittenIn (es ++ [e]) = r₀.batchesWrittenIn es ++ (r.batchWritten? e).toList := by
  rw [batchesWrittenIn_eq_along, batchesWrittenIn_eq_along]
  exact along_concat h e

end Run

theorem Event.batchRead?_eq_none {e : Event} (h : e.ofRead = false) : e.batchRead? = none := by
  cases e <;> simp_all [ofRead, batchRead?]

@[simp] theorem readCallsIn_concat (es : List Event) (e : Event) :
    readCallsIn (es ++ [e]) = readCallsIn es ++ if e.ofRead then [e] else [] := by
  cases h : e.ofRead <;> simp [readCallsIn, h]

theorem batchesReadIn_append (es fs : List Event) :
    batchesReadIn (es ++ fs) = batchesReadIn es ++ batchesReadIn fs :=
  List.filterMap_append

@[simp] theorem batchesReadIn_concat (es : List Event) (e : Event) :
    batchesReadIn (es ++ [e]) = batchesReadIn es ++ e.batchRead?.toList :=
  filterMap_concat _ _ _

end Tabular.Transfer
