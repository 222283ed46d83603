import Tabular.Proofs.Transfer.Consistency
import Tabular.Proofs.Transfer.History

/-! # What a run records

The slot of the first failure and the count of the others, the cancellation by the caller, and the
first error on closing are what the events of the run say. Each worker meets one failure at most.
-/
namespace Tabular.Transfer

theorem FirstError.foldl_record (failures : List Failure) :
    failures.foldl record {} = ⟨failures.head?,failures.length - 1⟩ := by
  induction failures using List.reverseRecOn with
  | nil => rfl
  | append_singleton failures failure ih =>
    rw [List.foldl_append, ih]
    cases failures <;> simp [record]

namespace Run
variable {r r' : Run} {e : Event} {es : List Event} {capacity : Nat} {cancelled : Bool}

theorem Moves.pullerPanic_eq (hm : Moves r e r') :
    pullerPanic r'.puller = pullerPanic r.puller ++ e.pullerPanic?.toList := by
  cases hm with
  | pullerStops hm =>
    cases hp : r.puller <;> simp_all [pullerMayStop, pullerPanic, Event.pullerPanic?]
  | _ => simp_all [pullerPanic, Event.pullerPanic?, fail, endPusher]

theorem Moves.pusherPanic_eq (hm : Moves r e r') :
    pusherPanic r'.pusher = pusherPanic r.pusher ++ e.pusherPanic?.toList := by
  cases hm with
  | pusherStops hm =>
    cases hp : r.pusher <;> simp_all [pusherMayStop, pusherPanic, Event.pusherPanic?, endPusher]
  | _ => simp_all [pusherPanic, Event.pusherPanic?, fail, endPusher]

theorem phaseAfterPuller_ne_working (r : Run) : r.phaseAfterPuller ≠ .working := by
  unfold phaseAfterPuller
  split <;> simp

theorem phaseAfterJoin_ne_working (r : Run) : r.phaseAfterJoin ≠ .working := by
  unfold phaseAfterJoin
  split
  · exact r.phaseAfterPuller_ne_working
  · simp

theorem Moves.errors_of_working (hm : Moves r e r') (hw : r'.phase = .working) :
    r.phase = .working ∧ r'.errors = e.failure?.toList.foldl FirstError.record r.errors := by
  cases hm <;> simp_all [Event.failure?, fail, endPusher, phaseAfterJoin_ne_working,
    phaseAfterPuller_ne_working]

/-- Once the workers are joined, nothing is recorded any more. -/
theorem Moves.errors_of_joined (hm : Moves r e r') (hr : r.Consistent) (hw : r.phase ≠ .working) :
    r'.errors = r.errors ∧ e.failure? = none ∧ e.pullerPanic? = none ∧ e.pusherPanic? = none := by
  obtain ⟨hl,hs⟩ := hr.both_ended hw
  cases hm <;> simp_all [Event.failure?, Event.pullerPanic?, Event.pusherPanic?, endPusher,
    Puller.ended, Pusher.ended]

/-- A worker ends with each failure it meets, so it meets one at most. -/
theorem Moves.failures_le (hm : Moves r e r') :
    e.failure?.toList.length + e.pullerPanic?.toList.length + e.pusherPanic?.toList.length +
      r.puller.ended.toNat + r.pusher.ended.toNat ≤
      r'.puller.ended.toNat + r'.pusher.ended.toNat := by
  cases hm with
  | pullerStops hm | pusherStops hm =>
    simp [Event.failure?, Event.pullerPanic?, Event.pusherPanic?, endPusher, Puller.ended,
      Pusher.ended, Bool.toNat_le]
  | _ => simp_all [Event.failure?, Event.pullerPanic?, Event.pusherPanic?, fail, endPusher,
      Puller.ended, Pusher.ended, Nat.add_comm]

/-- What a run has recorded is what its events say. -/
structure Recorded (es : List Event) (r : Run) : Prop where
  pulled : pullerPanic r.puller = es.filterMap Event.pullerPanic?
  pushed : pusherPanic r.pusher = es.filterMap Event.pusherPanic?
  working : r.phase = .working → r.errors = (es.filterMap Event.failure?).foldl FirstError.record {}
  joined : r.phase ≠ .working → r.errors = (failuresIn es).foldl FirstError.record {}
  count : (failuresIn es).length ≤ r.puller.ended.toNat + r.pusher.ended.toNat

theorem recorded_start : Recorded [] (start capacity cancelled) := by
  constructor <;> simp [start, pullerPanic, pusherPanic, failuresIn]

theorem Moves.recorded (hm : Moves r e r') (hr : r.Consistent) (h : Recorded es r) :
    Recorded (es ++ [e]) r' := by
  obtain ⟨hl,hs,hw,hj,hc⟩ := h
  refine ⟨?_,?_,?_,?_,?_⟩
  · rw [filterMap_concat, hm.pullerPanic_eq, hl]
  · rw [filterMap_concat, hm.pusherPanic_eq, hs]
  · intro hw'
    obtain ⟨hw₀,he⟩ := hm.errors_of_working hw'
    rw [he, hw hw₀, filterMap_concat, List.foldl_append]
  · intro hj'
    by_cases hw₀ : r.phase = .working
    · cases hm
      case joins _ _ _ =>
        simp only [failuresIn, filterMap_concat, Event.failure?, Event.pullerPanic?,
          Event.pusherPanic?, Option.toList_none, List.append_nil, hw hw₀, hl, hs,
          List.foldl_append]
      case sourceCloses hw₁ | sinkCloses hw₁ => simp [hw₀] at hw₁
      all_goals exact absurd hw₀ hj'
    · obtain ⟨he,h₁,h₂,h₃⟩ := hm.errors_of_joined hr hw₀
      simp [failuresIn, h₁, h₂, h₃, he, hj hw₀]
  · have hn := hm.failures_le
    simp only [failuresIn, filterMap_concat, List.length_append] at hc ⊢
    omega

theorem recorded_of_steps (h : (start capacity cancelled).steps es = some r) : Recorded es r :=
  steps_induction (motive := Recorded) recorded_start
    (fun hs hr hm => hm.recorded (consistent_of_steps hs) hr) h

/-- The caller's token is fired by the caller and by nothing else. -/
theorem callerFired_iff (h : (start capacity cancelled).steps es = some r) :
    r.callerFired = true ↔ CallerFiredIn cancelled es := by
  refine steps_induction (motive := fun es r => r.callerFired = true ↔ CallerFiredIn cancelled es)
    (by simp [start, CallerFiredIn]) ?_ h
  intro es r e r' _ hr hm
  cases hm <;> simp_all [CallerFiredIn, fail, endPusher]

/-- The first error on closing; the sink has not been closed before the source. -/
structure Closing (es : List Event) (r : Run) : Prop where
  source : r.phase = .working ∨ r.phase = .closingSource →
    es.filterMap Event.sourceCloseError? = []
  sink : r.phase ≠ .closed → es.filterMap Event.sinkCloseError? = []
  error : r.closeError = (closeErrorsIn es).head?

theorem Closing.of_same (h : Closing es r) (hs : e.sourceCloseError? = none)
    (hk : e.sinkCloseError? = none) (he : r'.closeError = r.closeError)
    (hw : r'.phase = r.phase ∨ r.phase = .working) : Closing (es ++ [e]) r' := by
  obtain ⟨hs₀,hk₀,he₀⟩ := h
  refine ⟨fun hp => ?_,fun hp => ?_,?_⟩
  · rw [filterMap_concat, hs, hs₀ (hw.elim (fun hw => hw ▸ hp) .inl)]
    rfl
  · rw [filterMap_concat, hk, hk₀ (hw.elim (fun hw => hw ▸ hp) (fun hw => by simp [hw]))]
    rfl
  · rw [he, he₀, closeErrorsIn, closeErrorsIn, filterMap_concat, filterMap_concat, hs, hk]
    simp

theorem Moves.closing (hm : Moves r e r') (h : Closing es r) : Closing (es ++ [e]) r' := by
  cases hm
  case sourceCloses error hc =>
    have hs := h.source (.inr hc)
    have hk := h.sink (by simp [hc])
    refine ⟨fun hw => ?_,fun _ => ?_,?_⟩
    · unfold phaseAfterPuller at hw
      split at hw <;> simp at hw
    · rw [filterMap_concat, hk]
      rfl
    · rw [closeErrorsIn, filterMap_concat, filterMap_concat, hs, hk]
      cases error <;> rfl
  case sinkCloses error hc =>
    have hk := h.sink (by simp [hc])
    have he := h.error
    rw [closeErrorsIn, hk, List.append_nil] at he
    refine ⟨by simp,by simp,?_⟩
    rw [closeErrorsIn, filterMap_concat, filterMap_concat, hk, he]
    cases error <;> simp [Event.sourceCloseError?, Event.sinkCloseError?]
  case joins hw _ _ => exact h.of_same rfl rfl rfl (.inr hw)
  all_goals exact h.of_same rfl rfl rfl (.inl rfl)

theorem closing_of_steps (h : (start capacity cancelled).steps es = some r) : Closing es r := by
  refine steps_induction (motive := Closing) ?_ (fun _ hc hm => ?_) h
  · constructor <;> simp [start, closeErrorsIn]
  · exact hm.closing hc

end Run
end Tabular.Transfer
