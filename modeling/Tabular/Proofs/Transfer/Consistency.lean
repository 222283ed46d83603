import Tabular.Proofs.Transfer.Moves

/-! # What every run keeps

A worker that has ended moves no more. `Run.Consistent` collects how the endings of the workers,
the queue, the token and the slot of the first failure hang together at every moment; each move
keeps it, so it holds along every run.
-/
namespace Tabular.Transfer

@[simp] theorem FirstError.isSome_slot_record (errors : FirstError) (failure : Failure) :
    (errors.record failure).slot.isSome = true := by
  unfold FirstError.record
  split <;> simp_all

theorem FirstError.isSome_slot_foldl {errors : FirstError} (h : errors.slot.isSome = true)
    (failures : List Failure) : (failures.foldl record errors).slot.isSome = true := by
  induction failures generalizing errors with
  | nil => exact h
  | cons failure rest ih => exact ih (isSome_slot_record errors failure)

namespace Run
variable {r r' : Run} {e : Event}

theorem Moves.puller_eq (h : Moves r e r') (he : r.puller.ended = true) :
    r'.puller = r.puller := by
  cases h with
  | pullerStops hm => cases hp : r.puller <;> simp_all [Puller.ended, pullerMayStop]
  | _ => simp_all [Puller.ended, fail, endPusher]

theorem Moves.pusher_eq (h : Moves r e r') (he : r.pusher.ended = true) :
    r'.pusher = r.pusher := by
  cases h with
  | pusherStops hm => cases hp : r.pusher <;> simp_all [Pusher.ended, pusherMayStop]
  | _ => simp_all [Pusher.ended, fail]

/-- A puller that stops without having come to the end of the source had a reason to. -/
theorem pullerMayStop_iff : r.pullerMayStop = true ↔ r.puller.ended = false ∧
    (r.fired = true ∨ (∃ b, r.puller = .holding b) ∧ r.pusher.ended = true) := by
  cases hp : r.puller <;> simp [pullerMayStop, hp, Puller.ended]

theorem pusherMayStop_iff : r.pusherMayStop = true ↔ r.pusher.ended = false ∧
    (r.fired = true ∨ r.pusher = .idle ∧ r.queue = [] ∧ r.puller.ended = true) := by
  cases hp : r.pusher <;> simp [pusherMayStop, hp, Pusher.ended]

/-- How the parts of a run hang together. -/
structure Consistent (r : Run) : Prop where
  /-- A queue that nobody receives from is empty. -/
  queue_nil : r.pusher.ended = true → r.queue = []
  /-- Left alone, the pusher does not stop before the puller. -/
  puller_ended : r.pusher = .stopped → r.fired = false → r.puller.ended = true
  /-- Closing begins when both workers have ended. -/
  both_ended : r.phase ≠ .working → r.puller.ended = true ∧ r.pusher.ended = true
  fired_of_caller : r.callerFired = true → r.fired = true
  /-- Only the caller and a recorded failure fire the token of the run. -/
  cause : r.fired = true → r.callerFired = true ∨ r.errors.slot.isSome = true

theorem consistent_start (capacity : Nat) (cancelled : Bool) :
    (start capacity cancelled).Consistent := by
  constructor <;> simp [start, Pusher.ended]

theorem Moves.consistent (h : Moves r e r') (hr : r.Consistent) : r'.Consistent := by
  obtain ⟨hq,hl,hj,hc,hs⟩ := hr
  cases h with
  | callerCancels => exact ⟨hq,by simp,hj,by simp,by simp⟩
  | pullerStops hm => exact ⟨hq,fun _ _ => rfl,fun hw => ⟨rfl,(hj hw).2⟩,hc,hs⟩
  | pusherStops hm =>
    refine ⟨fun _ => rfl,?_,fun hw => ⟨(hj hw).1,rfl⟩,hc,hs⟩
    intro _ hf
    rcases (pusherMayStop_iff.mp hm).2 with hf' | ⟨_,_,he⟩
    · exact absurd hf' (Bool.eq_false_iff.mp hf)
    · exact he
  | joins hw hl' hs' =>
    refine ⟨hq,fun _ _ => hl',fun _ => ⟨hl',hs'⟩,hc,?_⟩
    intro hf
    exact (hs hf).imp_right (FirstError.isSome_slot_foldl · _)
  | _ => constructor <;> simp_all [Puller.ended, Pusher.ended, fail, endPusher]

theorem consistent_of_steps {capacity : Nat} {cancelled : Bool} {es : List Event}
    (h : (start capacity cancelled).steps es = some r) : r.Consistent :=
  steps_induction (motive := fun _ r => r.Consistent) (consistent_start capacity cancelled)
    (fun _ hr hm => hm.consistent hr) h

end Run
end Tabular.Transfer
