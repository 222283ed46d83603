import Tabular.Proofs.Transfer.Failures

/-! # What a start comes to

A start that is not refused comes to the end of a run, and its result and state are read off that
run's end.
-/
namespace Tabular.Transfer

variable {σ κ : Type} {e e' : Engine σ κ} {cancelled : Bool} {es : List Event}
variable {startedAt finishedAt : Calendar.Instant} {result : Except Error Metrics}

/-- A start that is not refused goes along a run to its end. -/
theorem Engine.startAlong_eq_some {ends : σ × κ} (hc : e.check = .ok ends)
    (h : e.startAlong cancelled es startedAt finishedAt = some (result, e')) :
    ∃ r, (Run.start e.settings.queueCapacity cancelled).steps es = some r ∧ r.phase = .closed ∧
      result = r.result.map (fun _ => e'.metrics) ∧ e'.metrics = r.metrics startedAt finishedAt ∧
      e'.state = Run.stateOf r.result := by
  simp only [startAlong, hc] at h
  cases hs : (Run.start e.settings.queueCapacity cancelled).steps es with
  | none => simp [hs] at h
  | some r =>
    simp only [hs] at h
    by_cases hp : r.phase = .closed
    · rw [if_pos hp, conclude] at h
      cases h
      exact ⟨r,rfl,hp,rfl,rfl,rfl⟩
    · rw [if_neg hp] at h
      cases h

theorem Engine.check_of_startAlong_ok {m : Metrics}
    (h : e.startAlong cancelled es startedAt finishedAt = some (.ok m, e')) :
    ∃ ends, e.check = .ok ends := by
  cases hc : e.check with
  | ok ends => exact ⟨ends,rfl⟩
  | error err =>
    simp only [startAlong, hc] at h
    split at h <;> simp at h

namespace Run
variable {r : Run} {capacity : Nat}

theorem result_of_slot {stage : Stage} {cause : Error} (h : r.errors.slot = some (stage, cause)) :
    r.result = .error (.worker stage cause) := by
  rw [result, h]

theorem result_of_callerFired (h : r.errors.slot = none) (hc : r.callerFired = true) :
    r.result = .error .cancelled := by
  simp only [result, h, hc, if_true]

theorem result_of_closeError (h : r.errors.slot = none) (hc : r.callerFired = false) :
    r.result = match r.closeError with
      | some cause => .error cause
      | none => .ok () := by
  cases hce : r.closeError <;> simp [result, h, hc, hce]

/-- At the end the holder of the first failure has seen all failures of the run. -/
theorem errors_of_closed (h : (start capacity cancelled).steps es = some r)
    (hp : r.phase = .closed) : r.errors = ⟨(failuresIn es).head?,(failuresIn es).length - 1⟩ := by
  rw [(recorded_of_steps h).joined (by simp [hp]), FirstError.foldl_record]

end Run
end Tabular.Transfer
