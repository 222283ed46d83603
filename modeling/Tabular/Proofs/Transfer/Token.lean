import Tabular.Proofs.Transfer.Order

/-! # What fires the token of a run

The caller fires it, and so does a read or a write that answers with an error. Once it has fired,
each worker may end in its next step, wherever it is. A panic is recorded as a failure too, but only
when the workers are joined, and it leaves the token as it was: the other worker then goes on until
the queue tells it, and a call it is inside holds it for as long as the call takes.
-/
namespace Tabular.Transfer.Run
variable {r r' : Run} {e : Event} {es : List Event} {capacity : Nat} {cancelled : Bool}

/-- The puller may end in its next step, even if a call of it or the queue never answers. -/
def PullerExits (r : Run) : Prop := ∃ r', r.step .pullerStops = some r' ∧ r'.puller.ended = true

def PusherExits (r : Run) : Prop := ∃ r', r.step .pusherStops = some r' ∧ r'.pusher.ended = true

theorem pullerExits_iff : r.PullerExits ↔ r.pullerMayStop = true := by
  constructor
  · rintro ⟨r',hs,_⟩
    cases Moves.of_step hs with
    | pullerStops hm => exact hm
  · exact fun hm => ⟨_,step_eq_some_iff.mpr (.pullerStops hm),rfl⟩

theorem pusherExits_iff : r.PusherExits ↔ r.pusherMayStop = true := by
  constructor
  · rintro ⟨r',hs,_⟩
    cases Moves.of_step hs with
    | pusherStops hm => exact hm
  · exact fun hm => ⟨_,step_eq_some_iff.mpr (.pusherStops hm),rfl⟩

theorem pullerExits_of_fired (hf : r.fired = true) (he : r.puller.ended = false) :
    r.PullerExits :=
  pullerExits_iff.mpr (pullerMayStop_iff.mpr ⟨he,.inl hf⟩)

theorem pusherExits_of_fired (hf : r.fired = true) (he : r.pusher.ended = false) :
    r.PusherExits :=
  pusherExits_iff.mpr (pusherMayStop_iff.mpr ⟨he,.inl hf⟩)

/-- The token fires with a cancellation by the caller and with an error that a worker records. -/
theorem Moves.fired_iff (hm : Moves r e r') :
    r'.fired = true ↔ r.fired = true ∨ e = .callerCancels ∨ e.failure? ≠ none := by
  cases hm <;> simp_all [Event.failure?, fail, endPusher]

theorem callerFiredIn_concat :
    CallerFiredIn cancelled (es ++ [e]) ↔ CallerFiredIn cancelled es ∨ e = .callerCancels := by
  simp [CallerFiredIn, or_assoc, eq_comm]

theorem fired_iff (h : (start capacity cancelled).steps es = some r) :
    r.fired = true ↔ CallerFiredIn cancelled es ∨ es.filterMap Event.failure? ≠ [] := by
  refine steps_induction (motive := fun es r => r.fired = true ↔
    CallerFiredIn cancelled es ∨ es.filterMap Event.failure? ≠ [])
    (by simp [start, CallerFiredIn]) ?_ h
  intro es r e r' _ ih hm
  rw [hm.fired_iff, ih, callerFiredIn_concat, filterMap_concat]
  cases e.failure? with
  | none => simp only [Option.toList_none, List.append_nil]; tauto
  | some failure => simp

/-- After a panic of the puller the pusher writes on, and ends when nothing is queued any more. -/
theorem pusherExits_of_panicked {text : String} (hp : r.puller = .panicked text)
    (hf : r.fired = false) : r.PusherExits ↔ r.pusher = .idle ∧ r.queue = [] := by
  rw [pusherExits_iff, pusherMayStop_iff]
  constructor
  · rintro ⟨_,hf' | ⟨hs,hq,_⟩⟩
    · simp [hf] at hf'
    · exact ⟨hs,hq⟩
  · rintro ⟨hs,hq⟩
    exact ⟨by rw [hs]; rfl,.inr ⟨hs,hq,by rw [hp]; rfl⟩⟩

/-- After a panic of the pusher the puller reads on, and ends when it has a batch to hand over. -/
theorem pullerExits_of_panicked {text : String} (hp : r.pusher = .panicked text)
    (hf : r.fired = false) : r.PullerExits ↔ ∃ b, r.puller = .holding b := by
  rw [pullerExits_iff, pullerMayStop_iff]
  constructor
  · rintro ⟨_,hf' | ⟨hl,_⟩⟩
    · simp [hf] at hf'
    · exact hl
  · rintro ⟨b,hl⟩
    exact ⟨by rw [hl]; rfl,.inr ⟨⟨b,hl⟩,by rw [hp]; rfl⟩⟩

end Run

/-- The first error of either side stops the other side. At every moment of every run the token has
fired exactly if the caller has fired it or a read or a write has answered with an error, and then
each worker that has not ended may end in its next step, whatever its call or the queue does. A
panic alone stops nobody: the pusher then ends only between writes and with nothing queued, the
puller only with a batch in hand. -/
theorem Engine.error_stops_other_side {σ κ : Type} (e : Engine σ κ) {cancelled : Bool}
    {es : List Event} {r : Run}
    (h : (Run.start e.settings.queueCapacity cancelled).steps es = some r) :
    (r.fired = true ↔ CallerFiredIn cancelled es ∨ es.filterMap Event.failure? ≠ []) ∧
    (r.fired = true → (r.puller.ended = false → r.PullerExits) ∧
      (r.pusher.ended = false → r.PusherExits)) ∧
    (r.fired = false → ∀ text,
      (r.puller = .panicked text → (r.PusherExits ↔ r.pusher = .idle ∧ r.queue = [])) ∧
      (r.pusher = .panicked text → (r.PullerExits ↔ ∃ b, r.puller = .holding b))) := by
  refine ⟨Run.fired_iff h,fun hf => ?_,fun hf text => ?_⟩
  · exact ⟨Run.pullerExits_of_fired hf,Run.pusherExits_of_fired hf⟩
  · exact ⟨(Run.pusherExits_of_panicked · hf),(Run.pullerExits_of_panicked · hf)⟩

/-- A batch is being written while the next one is being read. -/
def bothBusy (b : Batch) : List Event :=
  [.readStarts, .readReturns (.ok (some b)), .sends, .readStarts, .receives, .writeStarts]

theorem error_stops_other_side_bothBusy :
    let e : Engine Unit Unit := Engine.ofEndpoints () ()
    let es := bothBusy (oneCell 3) ++ [.writeReturns (.error (.sink (.described "full")))]
    ∃ r, (Run.start e.settings.queueCapacity false).steps es = some r ∧ r.puller = .reading ∧
      r.fired = true ∧ r.PullerExits := by
  intro e es
  have hs : ∃ r, (Run.start e.settings.queueCapacity false).steps es = some r ∧
      r.puller = .reading := ⟨_,rfl,rfl⟩
  obtain ⟨r,hs,hp⟩ := hs
  obtain ⟨hf,hx,_⟩ := Engine.error_stops_other_side e hs
  have hf : r.fired = true := hf.mpr (.inr (by simp [es, bothBusy, Event.failure?]))
  exact ⟨r,hs,hp,hf,(hx hf).1 (by rw [hp]; rfl)⟩

/-- A panic of one worker leaves the other inside a call that it cannot give up: the token has not
fired, although the panic is a failure of the run. -/
theorem panic_leaves_other_side :
    (∃ r, (Run.start 1 false).steps (bothBusy (oneCell 3) ++ [.readPanics "source"]) = some r ∧
      r.puller = .panicked "source" ∧ r.fired = false ∧ r.pusher = .writing (oneCell 3) ∧
      ¬ r.PusherExits) ∧
    ∃ r, (Run.start 1 false).steps (bothBusy (oneCell 3) ++ [.writePanics "sink"]) = some r ∧
      r.pusher = .panicked "sink" ∧ r.fired = false ∧ r.puller = .reading ∧ ¬ r.PullerExits := by
  constructor
  · refine ⟨_,rfl,rfl,rfl,rfl,?_⟩
    rw [Run.pusherExits_iff]
    decide
  · refine ⟨_,rfl,rfl,rfl,rfl,?_⟩
    rw [Run.pullerExits_iff]
    decide

end Tabular.Transfer
