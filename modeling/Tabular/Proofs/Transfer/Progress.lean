import Tabular.Proofs.Transfer.Throttle

/-! # Workers do not block each other

A worker waits inside a call of its endpoint, for room in the queue, or for a batch in the queue.
The last two are never waited for at once, as a queue with room for a batch is not both full and
empty; so when nobody can move, somebody is inside a call, and the token has not fired.
-/
namespace Tabular.Transfer

/-- Whether an event is a move that a worker makes by itself, without an answer of an endpoint. -/
def Event.byWorker : Event → Bool
  | readStarts | sends | pullerStops | receives | writeStarts | pusherStops => true
  | _ => false

namespace Run
variable {r r' : Run} {e : Event} {es : List Event}

/-- No worker can make a move by itself. -/
def Blocked (r : Run) : Prop := ∀ e, e.byWorker = true → r.step e = none

def InCall (r : Run) : Prop := r.puller = .reading ∨ ∃ b, r.pusher = .writing b

theorem Blocked.not_moves (h : r.Blocked) (he : e.byWorker = true) : ¬ Moves r e r' := by
  intro hm
  have hs := step_eq_some_iff.mpr hm
  rw [h e he] at hs
  cases hs

theorem Blocked.fired_eq_false (h : r.Blocked)
    (hw : r.puller.ended = false ∨ r.pusher.ended = false) : r.fired = false := by
  rw [Bool.eq_false_iff]
  intro hf
  rcases hw with hw | hw
  · exact h.not_moves rfl (.pullerStops (pullerMayStop_iff.mpr ⟨hw,.inl hf⟩))
  · exact h.not_moves rfl (.pusherStops (pusherMayStop_iff.mpr ⟨hw,.inl hf⟩))

/-- What a puller that has not ended waits for: its read, or room in the queue of a pusher that is
still there. -/
theorem Blocked.puller_waits (h : r.Blocked) (hw : r.puller.ended = false) :
    r.puller = .reading ∨ r.pusher.ended = false ∧ r.capacity ≤ r.queue.length := by
  have hf := h.fired_eq_false (.inl hw)
  cases hp : r.puller with
  | idle => exact absurd (.readStarts hp hf) (h.not_moves rfl)
  | reading => exact .inl rfl
  | holding b =>
    have he : r.pusher.ended = false := by
      rw [Bool.eq_false_iff]
      intro he
      exact h.not_moves rfl (.pullerStops (pullerMayStop_iff.mpr ⟨hw,.inr ⟨⟨b,hp⟩,he⟩⟩))
    refine .inr ⟨he,Nat.le_of_not_lt fun hq => ?_⟩
    exact h.not_moves rfl (.sends hp hf he hq)
  | stopped | panicked => simp [hp, Puller.ended] at hw

/-- What a pusher that has not ended waits for: its write, or a batch from a puller that is still
there. -/
theorem Blocked.pusher_waits (h : r.Blocked) (hw : r.pusher.ended = false) :
    (∃ b, r.pusher = .writing b) ∨ r.puller.ended = false ∧ r.queue = [] := by
  have hf := h.fired_eq_false (.inr hw)
  cases hp : r.pusher with
  | idle =>
    cases hq : r.queue with
    | cons b bs => exact absurd (.receives hp hq hf) (h.not_moves rfl)
    | nil =>
      refine .inr ⟨?_,rfl⟩
      rw [Bool.eq_false_iff]
      intro he
      exact h.not_moves rfl (.pusherStops (pusherMayStop_iff.mpr ⟨hw,.inr ⟨hp,hq,he⟩⟩))
  | holding b => exact absurd (.writeStarts hp hf) (h.not_moves rfl)
  | writing b => exact .inl ⟨b,rfl⟩
  | stopped | panicked => simp [hp, Pusher.ended] at hw

/-- Workers that cannot move are not all waiting for each other. -/
theorem Blocked.inCall (h : r.Blocked) (hc : 0 < r.capacity)
    (hw : r.puller.ended = false ∨ r.pusher.ended = false) : r.InCall := by
  by_contra hn
  have hread : r.puller ≠ .reading := fun hp => hn (.inl hp)
  have hwrite : ¬ ∃ b, r.pusher = .writing b := fun hp => hn (.inr hp)
  -- each worker keeps the other one from having ended, so both wait at the queue
  have hpuller : r.puller.ended = false → r.pusher.ended = false ∧ r.capacity ≤ r.queue.length :=
    fun hl => (h.puller_waits hl).resolve_left hread
  have hpusher : r.pusher.ended = false → r.puller.ended = false ∧ r.queue = [] :=
    fun hs => (h.pusher_waits hs).resolve_left hwrite
  have hl : r.puller.ended = false := hw.elim id fun hs => (hpusher hs).1
  obtain ⟨hs,hfull⟩ := hpuller hl
  obtain ⟨_,hempty⟩ := hpusher hs
  rw [hempty, List.length_nil] at hfull
  omega

/-- A queue without room would block a run at its first batch, with nobody inside a call. -/
theorem exists_blocked_without_room (b : Batch) :
    ∃ r, (start 0 false).steps [.readStarts, .readReturns (.ok (some b))] = some r ∧
      r.puller = .holding b ∧ r.pusher = .idle ∧ r.Blocked := by
  refine ⟨_,rfl,rfl,rfl,fun e he => ?_⟩
  cases e with
  | readStarts | sends | pullerStops | receives | writeStarts | pusherStops => rfl
  | _ => cases he

end Run

/-- Settings under which a run may start leave room for a batch in the queue. -/
theorem Engine.capacity_pos_of_check {σ κ : Type} {e : Engine σ κ} {ends : σ × κ}
    (hc : e.check = .ok ends) : 0 < e.settings.queueCapacity := by
  rw [Nat.pos_iff_ne_zero]
  intro hz
  unfold check Settings.validate at hc
  rw [if_pos hz] at hc
  split at hc <;> cases hc

/-- The workers and the queue never block each other. As long as a worker has not ended, at whatever
moment of whatever run, a worker can move by itself, or one that has not ended is inside a call of
its endpoint while the token has not fired. -/
theorem Engine.workers_never_deadlock {σ κ : Type} {e : Engine σ κ} {ends : σ × κ}
    (hc : e.check = .ok ends) {cancelled : Bool} {es : List Event} {r : Run}
    (h : (Run.start e.settings.queueCapacity cancelled).steps es = some r)
    (hw : r.puller.ended = false ∨ r.pusher.ended = false) :
    (∃ event r', event.byWorker = true ∧ r.step event = some r') ∨
    r.fired = false ∧ r.InCall := by
  by_cases hb : r.Blocked
  · have hroom : 0 < r.capacity := by
      rw [Run.capacity_of_steps h]
      exact capacity_pos_of_check hc
    exact .inr ⟨hb.fired_eq_false hw,hb.inCall hroom hw⟩
  · left
    simp only [Run.Blocked, not_forall] at hb
    obtain ⟨event,he,hs⟩ := hb
    obtain ⟨r',hs⟩ := Option.ne_none_iff_exists'.mp hs
    exact ⟨event,r',he,hs⟩

/-- The puller holds a batch for which the full queue has no room, and the write goes on. -/
theorem workers_never_deadlock_fullBehindWrite :
    let e : Engine Unit Unit := (Engine.ofEndpoints () ()).withSettings { queueCapacity := 1 }
    let es := fullBehindWrite (oneCell 3) ++ [.readReturns (.ok (some (oneCell 5)))]
    e.check = .ok ((), ()) ∧
    ∃ r, (Run.start e.settings.queueCapacity false).steps es = some r ∧ r.puller.ended = false ∧
      ((∃ event r', event.byWorker = true ∧ r.step event = some r') ∨
        r.fired = false ∧ r.InCall) := by
  intro e es
  have hc : e.check = .ok ((), ()) := rfl
  have hs : ∃ r, (Run.start e.settings.queueCapacity false).steps es = some r ∧
      r.puller.ended = false := ⟨_,rfl,rfl⟩
  obtain ⟨r,hs,hw⟩ := hs
  exact ⟨hc,r,hs,hw,Engine.workers_never_deadlock hc hs (.inl hw)⟩

end Tabular.Transfer
