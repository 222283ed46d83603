import Tabular.Proofs.Transfer.Starts

/-! # The outcome of a transfer

Whatever the interleaving, the result of a start is decided by a fixed precedence: the first
failure of a worker, else the cancellation by the caller, else the first error on closing. The
state it leads to tells a cancellation by the caller from everything else.
-/
namespace Tabular.Transfer

def Event.endpointError? : Event → Option Error
  | readReturns (.error cause) | writeReturns (.error cause) => some cause
  | sourceCloses error | sinkCloses error => error
  | _ => none

def endpointErrorsIn (es : List Event) : List Error := es.filterMap Event.endpointError?

/-- A failure of a worker is an error of its endpoint or a panic. -/
theorem cause_of_mem_failuresIn {es : List Event} {failure : Failure}
    (h : failure ∈ failuresIn es) :
    failure.2 ∈ endpointErrorsIn es ∨ ∃ task text, failure.2 = .taskFailed task text := by
  simp only [failuresIn, List.mem_append, List.mem_filterMap] at h
  rcases h with (⟨e,he,hf⟩ | ⟨e,he,hf⟩) | ⟨e,he,hf⟩
  · left
    refine List.mem_filterMap.mpr ⟨e,he,?_⟩
    unfold Event.failure? at hf
    split at hf <;> cases hf <;> rfl
  · right
    unfold Event.pullerPanic? at hf
    split at hf <;> cases hf
    exact ⟨_,_,rfl⟩
  · right
    unfold Event.pusherPanic? at hf
    split at hf <;> cases hf
    exact ⟨_,_,rfl⟩

theorem closeErrorsIn_subset (es : List Event) : closeErrorsIn es ⊆ endpointErrorsIn es := by
  intro cause h
  simp only [closeErrorsIn, List.mem_append, List.mem_filterMap] at h
  rcases h with ⟨e,he,hf⟩ | ⟨e,he,hf⟩
  · refine List.mem_filterMap.mpr ⟨e,he,?_⟩
    unfold Event.sourceCloseError? at hf
    split at hf
    · exact hf
    · cases hf
  · refine List.mem_filterMap.mpr ⟨e,he,?_⟩
    unfold Event.sinkCloseError? at hf
    split at hf
    · exact hf
    · cases hf

theorem Run.stateOf_eq_cancelled {x : Except Error Unit} :
    Run.stateOf x = .cancelled ↔ x = .error .cancelled := by
  unfold Run.stateOf
  split <;> simp_all

theorem Run.stateOf_eq_completed {x : Except Error Unit} :
    Run.stateOf x = .completed ↔ x = .ok () := by
  unfold Run.stateOf
  split <;> simp_all

theorem Run.stateOf_eq_failed {x : Except Error Unit} :
    Run.stateOf x = .failed ↔ ∃ cause, x = .error cause ∧ cause ≠ .cancelled := by
  unfold Run.stateOf
  split <;> simp_all

namespace Run
variable {capacity : Nat} {cancelled : Bool} {es : List Event} {r : Run}

/-- The precedence among what can end a run. -/
theorem result_of_closed (h : (start capacity cancelled).steps es = some r)
    (hp : r.phase = .closed) :
    (∀ stage cause rest, failuresIn es = (stage, cause) :: rest →
      r.result = .error (.worker stage cause) ∧ r.errors.suppressed = rest.length ∧
      rest.length ≤ 1) ∧
    (failuresIn es = [] → r.errors.suppressed = 0 ∧
      (CallerFiredIn cancelled es → r.result = .error .cancelled) ∧
      (¬ CallerFiredIn cancelled es → r.result = match closeErrorsIn es with
        | cause :: _ => .error cause
        | [] => .ok ())) := by
  have he := errors_of_closed h hp
  have hcount := (recorded_of_steps h).count
  constructor
  · intro stage cause rest hf
    rw [hf] at he hcount
    have hl := r.puller.ended.toNat_le
    have hs := r.pusher.ended.toNat_le
    simp only [List.length_cons] at hcount
    exact ⟨result_of_slot (by rw [he]; rfl),by rw [he]; rfl,by omega⟩
  · intro hf
    rw [hf] at he
    have hslot : r.errors.slot = none := by rw [he]; rfl
    refine ⟨by rw [he]; rfl,fun hc => ?_,fun hc => ?_⟩
    · exact result_of_callerFired hslot ((callerFired_iff h).mpr hc)
    · have hc' : r.callerFired = false := by
        by_contra hn
        exact hc ((callerFired_iff h).mp (by simpa using hn))
      rw [result_of_closeError hslot hc', (closing_of_steps h).error]
      cases closeErrorsIn es <;> rfl

/-- A result is a cancellation when the caller has cancelled, and otherwise only when an endpoint
has answered with one. -/
theorem isCancelled_result (h : (start capacity cancelled).steps es = some r)
    (hp : r.phase = .closed) {cause : Error} (hr : r.result = .error cause) :
    cause.isCancelled = true ↔ cause = .cancelled ∨ ∃ x ∈ endpointErrorsIn es,
      x.isCancelled = true ∧ (cause = x ∨ ∃ stage, cause = .worker stage x) := by
  constructor
  · intro hi
    obtain ⟨hfail,hnone⟩ := result_of_closed h hp
    cases hf : failuresIn es with
    | cons failure rest =>
      obtain ⟨stage,x⟩ := failure
      have hw := (hfail stage x rest hf).1
      rw [hr] at hw
      cases hw
      right
      rcases cause_of_mem_failuresIn (hf ▸ List.mem_cons_self) with hx | ⟨task,text,hx⟩
      · exact ⟨x,hx,hi,.inr ⟨stage,rfl⟩⟩
      · dsimp only at hx
        subst hx
        simp [Error.isCancelled] at hi
    | nil =>
      obtain ⟨_,hfired,hopen⟩ := hnone hf
      by_cases hc : CallerFiredIn cancelled es
      · have hw := hfired hc
        rw [hr] at hw
        cases hw
        exact .inl rfl
      · have hw := hopen hc
        rw [hr] at hw
        cases hl : closeErrorsIn es with
        | nil => rw [hl] at hw; cases hw
        | cons x rest =>
          rw [hl] at hw
          cases hw
          exact .inr ⟨_,closeErrorsIn_subset es (hl ▸ List.mem_cons_self),hi,.inl rfl⟩
  · rintro (rfl | ⟨x,_,hx,rfl | ⟨stage,rfl⟩⟩)
    · rfl
    · exact hx
    · exact hx

end Run

/-- The outcome of a start that is not refused, whatever the interleaving. A failure of a worker
comes first and is wrapped with the worker it came from; the others, one at most, are counted.
Without a failure the cancellation by the caller decides, and without that the first error on
closing. Nothing but the caller fires the caller's token. The state is that of the result, and as
long as no endpoint itself answers with a cancellation, the error is one exactly in the state of a
cancelled transfer. The queue is within the limit of its channel, and no close panics; a start that
does so returns nothing that could have an outcome. -/
theorem Engine.outcome_by_precedence {σ κ : Type} {e e' : Engine σ κ} {ends : σ × κ}
    (hc : e.check = .ok ends) {cancelled : Bool} {es : List Event}
    {startedAt finishedAt : Calendar.Instant} {result : Except Error Metrics}
    (h : e.startAlong cancelled es startedAt finishedAt = some (result, e')) :
    (∀ stage cause rest, failuresIn es = (stage, cause) :: rest →
      result = .error (.worker stage cause) ∧
      e'.metrics.suppressedErrors = rest.length ∧ rest.length ≤ 1) ∧
    (failuresIn es = [] → e'.metrics.suppressedErrors = 0 ∧
      (CallerFiredIn cancelled es → result = .error .cancelled) ∧
      (¬ CallerFiredIn cancelled es → result = match closeErrorsIn es with
        | cause :: _ => .error cause
        | [] => .ok e'.metrics)) ∧
    (∀ before after r, es = before ++ after →
      (Run.start e.settings.queueCapacity cancelled).steps before = some r →
      (r.callerFired = true ↔ CallerFiredIn cancelled before)) ∧
    (e'.state = .completed ↔ ∃ metrics, result = .ok metrics) ∧
    (e'.state = .cancelled ↔ result = .error .cancelled) ∧
    (e'.state = .failed ↔ ∃ cause, result = .error cause ∧ cause ≠ .cancelled) ∧
    (∀ cause, result = .error cause →
      (cause.isCancelled = true ↔ e'.state = .cancelled ∨ ∃ x ∈ endpointErrorsIn es,
        x.isCancelled = true ∧ (cause = x ∨ ∃ stage, cause = .worker stage x))) ∧
    ((∀ x ∈ endpointErrorsIn es, x.isCancelled = false) → ∀ cause, result = .error cause →
      (cause.isCancelled = true ↔ e'.state = .cancelled)) := by
  obtain ⟨r,hs,hp,hres,hm,hst⟩ := startAlong_eq_some hc h
  obtain ⟨hfail,hnone⟩ := Run.result_of_closed hs hp
  have hsup : e'.metrics.suppressedErrors = r.errors.suppressed := by rw [hm]; rfl
  have herr : ∀ cause, result = .error cause ↔ r.result = .error cause := by
    intro cause
    rw [hres]
    cases r.result <;> simp [Except.map]
  have hcan : ∀ cause, result = .error cause →
      (cause.isCancelled = true ↔ e'.state = .cancelled ∨ ∃ x ∈ endpointErrorsIn es,
        x.isCancelled = true ∧ (cause = x ∨ ∃ stage, cause = .worker stage x)) := by
    intro cause hcause
    have hr := (herr cause).mp hcause
    rw [Run.isCancelled_result hs hp hr, hst, Run.stateOf_eq_cancelled, hr]
    simp
  refine ⟨?_,?_,?_,?_,?_,?_,hcan,?_⟩
  · intro stage cause rest hf
    obtain ⟨hr,hn,hl⟩ := hfail stage cause rest hf
    exact ⟨(herr _).mpr hr,hsup.trans hn,hl⟩
  · intro hf
    obtain ⟨hn,hfired,hopen⟩ := hnone hf
    refine ⟨hsup.trans hn,fun hc => (herr _).mpr (hfired hc),fun hc => ?_⟩
    rw [hres, hopen hc]
    cases closeErrorsIn es <;> rfl
  · intro before after r₁ _ hb
    exact Run.callerFired_iff hb
  · rw [hst, Run.stateOf_eq_completed, hres]
    cases r.result <;> simp [Except.map]
  · rw [hst, Run.stateOf_eq_cancelled, herr]
  · rw [hst, Run.stateOf_eq_failed]
    simp only [herr]
  · intro hx cause hcause
    rw [hcan cause hcause]
    constructor
    · rintro (hstate | ⟨x,hmem,hi,_⟩)
      · exact hstate
      · rw [hx x hmem] at hi
        cases hi
    · exact .inl

/-- A write fails while a read is under way, the read then fails too, and so does closing. -/
def bothFail (b : Batch) (first second third : Error) : List Event :=
  [.readStarts, .readReturns (.ok (some b)), .sends, .readStarts, .receives, .writeStarts,
    .writeReturns (.error first), .readReturns (.error second), .callerCancels, .joins,
    .sourceCloses (some third), .sinkCloses none]

theorem outcome_by_precedence_bothFail :
    let first := Error.sink (.described "full")
    let es := bothFail default first .cancelled (.source (.described "gone"))
    ∃ result, ∃ e' : Engine Unit Unit,
      (Engine.ofEndpoints () ()).startAlong false es ⟨0,0⟩ ⟨1,0⟩ = some (result, e') ∧
      result = .error (.worker .push first) ∧ e'.metrics.suppressedErrors = 1 ∧
      e'.state = .failed := by
  intro first es
  let e : Engine Unit Unit := Engine.ofEndpoints () ()
  have hc : e.check = .ok ((), ()) := rfl
  have hs : ∃ result e', e.startAlong false es ⟨0,0⟩ ⟨1,0⟩ = some (result, e') := ⟨_,_,rfl⟩
  obtain ⟨result,e',hs⟩ := hs
  have h := Engine.outcome_by_precedence hc hs
  obtain ⟨hr,hn,_⟩ := h.1 _ _ _ rfl
  have hst := h.2.2.2.2.2.1
  exact ⟨result,e',hs,hr,hn,hst.mpr ⟨_,hr,by simp⟩⟩

end Tabular.Transfer
