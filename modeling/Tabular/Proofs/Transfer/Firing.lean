import Tabular.Proofs.Transfer.Counts
import Tabular.Proofs.Transfer.Outcome
import Tabular.Proofs.Transfer.Schedule
import Tabular.Proofs.Transfer.Token

/-! # After the token has fired

Both workers look at the token before they begin a call, so none begins once it has fired. A call
under way may come to its end or be given up, and so the only batch that can still be written is the
one whose write is under way. A failure of a read or of a write fires the token itself, which bounds
how many writes a run with a failing read makes and lets a failed write be the last one. A start
whose caller has cancelled before does nothing but close its endpoints, and comes to its end.
-/
namespace Tabular.Transfer

theorem failuresIn_eq_nil {es : List Event} (hr : readCallsIn es = []) (hw : writeCallsIn es = []) :
    failuresIn es = [] := by
  rw [readCallsIn, List.filter_eq_nil_iff] at hr
  rw [writeCallsIn, List.filter_eq_nil_iff] at hw
  simp only [failuresIn, List.append_eq_nil_iff, List.filterMap_eq_nil_iff]
  refine ⟨⟨?_,?_⟩,?_⟩
  all_goals
    intro e he
    have hread := hr e he
    have hwrite := hw e he
    cases e <;> simp_all [Event.ofRead, Event.ofWrite] <;> rfl

theorem batchesReadIn_eq_nil {es : List Event} (h : readCallsIn es = []) :
    batchesReadIn es = [] := by
  rw [readCallsIn, List.filter_eq_nil_iff] at h
  rw [batchesReadIn, List.filterMap_eq_nil_iff]
  intro e he
  exact Event.batchRead?_eq_none (by simpa using h e he)

theorem writesSucceededIn_eq_zero {es : List Event} (h : writeCallsIn es = []) :
    writesSucceededIn es = 0 := by
  rw [writeCallsIn, List.filter_eq_nil_iff] at h
  rw [writesSucceededIn, List.countP_eq_zero]
  intro e he
  have hwrite := h e he
  cases e <;> simp_all [Event.ofWrite, Event.writeSucceeds]

namespace Run
variable {r r' r₀ : Run} {e : Event} {es before after : List Event} {capacity : Nat}
variable {cancelled : Bool}

/-- With the token fired, a read can only come to its end, and then it was under way. -/
theorem Moves.readCalls_le (hm : Moves r e r') (hf : r.fired = true) :
    e.ofRead.toNat + r'.puller.openCall.length ≤ r.puller.openCall.length := by
  cases hm with
  | readStarts hp hf' => simp [hf] at hf'
  | pullerStops hm => exact Nat.zero_le _
  | _ => simp_all [Event.ofRead, Puller.openCall, fail, endPusher]

theorem Moves.writeCalls_le (hm : Moves r e r') (hf : r.fired = true) :
    e.ofWrite.toNat + r'.pusher.openCall.length ≤ r.pusher.openCall.length := by
  cases hm with
  | writeStarts hp hf' => simp [hf] at hf'
  | pusherStops hm => exact Nat.zero_le _
  | _ => simp_all [Event.ofWrite, Pusher.openCall, fail, endPusher]

/-- What may have happened since a run at which the token had fired. -/
structure Quiet (r₀ : Run) (es : List Event) (r : Run) : Prop where
  fired : r.fired = true
  no_readStarts : Event.readStarts ∉ es
  no_writeStarts : Event.writeStarts ∉ es
  readCalls_le :
    (readCallsIn es).length + r.puller.openCall.length ≤ r₀.puller.openCall.length
  writeCalls_le :
    (writeCallsIn es).length + r.pusher.openCall.length ≤ r₀.pusher.openCall.length

theorem Quiet.move (hm : Moves r e r') (h : Quiet r₀ es r) : Quiet r₀ (es ++ [e]) r' := by
  obtain ⟨hf,hr,hw,hrc,hwc⟩ := h
  have hread := hm.readCalls_le hf
  have hwrite := hm.writeCalls_le hf
  have hnr : Event.readStarts ≠ e := by
    rintro rfl
    cases hm with
    | readStarts hp hf' => simp [hf] at hf'
  have hnw : Event.writeStarts ≠ e := by
    rintro rfl
    cases hm with
    | writeStarts hp hf' => simp [hf] at hf'
  refine ⟨hm.fired_iff.mpr (.inl hf),by simp [hr, hnr],by simp [hw, hnw],?_,?_⟩
  · have hlen : (readCallsIn (es ++ [e])).length = (readCallsIn es).length + e.ofRead.toNat := by
      cases h : e.ofRead <;> simp [h]
    omega
  · have hlen : (writeCallsIn (es ++ [e])).length = (writeCallsIn es).length + e.ofWrite.toNat := by
      cases h : e.ofWrite <;> simp [h]
    omega

theorem quiet_of_fired (hf : r₀.fired = true) (h : r₀.steps es = some r) : Quiet r₀ es r := by
  refine steps_induction (motive := Quiet r₀) ?_ (fun _ hq hm => hq.move hm) h
  exact ⟨hf,by simp,by simp,by simp [readCallsIn],by simp [writeCallsIn]⟩

theorem steps_of_append (hb : r₀.steps before = some r) (ha : r.steps after = some r') :
    r₀.steps (before ++ after) = some r' := by
  rw [steps_append, hb]
  exact ha

theorem Moves.fired_of_failure (hm : Moves r e r') (h : e.failure? ≠ none) : r'.fired = true :=
  hm.fired_iff.mpr (.inr (.inr h))

/-- Nothing is written any more that has not been offered before the token fired. -/
theorem batchesWrittenIn_prefix_offered (hb : (start capacity cancelled).steps before = some r)
    (hf : r.fired = true) (ha : r.steps after = some r') :
    (start capacity cancelled).batchesWrittenIn (before ++ after) <+:
      (start capacity cancelled).batchesOfferedIn before := by
  have hwritten := (offered_of_steps (steps_of_append hb ha)).written_offered
  rw [batchesOfferedIn_append hb,
    batchesOfferedIn_eq_nil (quiet_of_fired hf ha).no_writeStarts, List.append_nil] at hwritten
  exact hwritten

/-- The writes of a run with a read that fails are fewer than the reads up to that one. -/
theorem writesStartedIn_lt_of_readFails {cause : Error}
    (hb : (start capacity cancelled).steps before = some r)
    (ha : r.steps (.readReturns (.error cause) :: after) = some r') :
    writesStartedIn (before ++ .readReturns (.error cause) :: after) < readsStartedIn before := by
  obtain ⟨r₁,hs,hrest⟩ := Option.bind_eq_some_iff.mp ha
  have hreading : r.puller = .reading := by
    cases Moves.of_step hs with
    | readFails hp => exact hp
  have hf : r₁.fired = true := (Moves.of_step hs).fired_of_failure (by simp [Event.failure?])
  have hquiet := quiet_of_fired hf hrest
  -- no write begins from here on, and each one that has begun is of a batch that has been read
  have hnone : Event.writeStarts ∉ Event.readReturns (.error cause) :: after := by
    simpa using hquiet.no_writeStarts
  have hle := (offered_of_steps hb).offered_read.length_le
  have hread := (throttled_of_steps hb).read_le
  have hcount := length_batchesOfferedIn (steps_of_append hb ha)
  rw [batchesOfferedIn_append hb, batchesOfferedIn_eq_nil hnone, List.append_nil] at hcount
  rw [hreading] at hread
  simp only [Puller.waits] at hread
  omega

theorem writeCallsIn_eq_nil_of_writeFails {cause : Error}
    (ha : r.steps (.writeReturns (.error cause) :: after) = some r') :
    writeCallsIn after = [] := by
  obtain ⟨r₁,hs,hrest⟩ := Option.bind_eq_some_iff.mp ha
  have hm := Moves.of_step hs
  have hf : r₁.fired = true := hm.fired_of_failure (by simp [Event.failure?])
  have hstopped : r₁.pusher = .stopped := by
    cases hm with
    | writeFails hp => rfl
  have hle := (quiet_of_fired hf hrest).writeCalls_le
  rw [hstopped] at hle
  exact List.eq_nil_of_length_eq_zero (Nat.eq_zero_of_add_eq_zero_right (Nat.le_zero.mp hle))

/-- A run whose caller has cancelled before makes no calls but those that close. -/
theorem no_calls_of_cancelled (h : (start capacity true).steps es = some r) :
    readCallsIn es = [] ∧ writeCallsIn es = [] := by
  have hfired : (start capacity true).fired = true := rfl
  have hq := quiet_of_fired hfired h
  have hr := hq.readCalls_le
  have hw := hq.writeCalls_le
  simp only [start, Puller.openCall, Pusher.openCall, List.length_nil] at hr hw
  exact ⟨List.eq_nil_of_length_eq_zero (by omega),List.eq_nil_of_length_eq_zero (by omega)⟩

theorem outcome_of_cancelled (h : (start capacity true).steps es = some r)
    (hp : r.phase = .closed) (startedAt finishedAt : Calendar.Instant) :
    r.result = .error .cancelled ∧ r.metrics startedAt finishedAt =
      { startedAt := some startedAt, finishedAt := some finishedAt } := by
  obtain ⟨hr,hw⟩ := no_calls_of_cancelled h
  obtain ⟨hsup,hres,_⟩ := (result_of_closed h hp).2 (failuresIn_eq_nil hr hw)
  obtain ⟨hbr,hrr,hbw,hrw⟩ := counted_of_steps h
  have hread := batchesReadIn_eq_nil hr
  have hwritten : (start capacity true).batchesWrittenIn es = [] := by
    apply List.eq_nil_of_length_eq_zero
    rw [length_batchesWrittenIn h]
    exact writesSucceededIn_eq_zero hw
  rw [hread] at hbr hrr
  rw [hwritten] at hbw hrw
  refine ⟨hres (.inl rfl),?_⟩
  cases hl : r.puller <;> cases hs : r.pusher <;>
    simp [metrics, hl, hs, hbr, hrr, hbw, hrw, hsup, rowsOf]

end Run

namespace Scene
variable {σ κ : Type} [Pullable σ] [Pushable κ]

/-- Workers that have ended are joined and their endpoints closed, whatever the closes answer. -/
theorem phase_windUp {s : Scene σ κ} (hw : s.run.phase = .working)
    (hl : s.run.puller.ended = true) (hs : s.run.pusher.ended = true) :
    s.windUp.run.phase = .closed := by
  unfold windUp
  cases hp : s.run.puller <;> cases hq : s.run.pusher <;>
    simp_all [happen, Run.step, Run.wind, Run.phaseAfterJoin, Run.phaseAfterPuller, Puller.ended,
      Pusher.ended]

/-- With the token fired before, both workers stop at once, and then the run is wound up. -/
theorem phase_play_of_cancelled (capacity : Nat) (source : σ) (sink : κ) :
    (play capacity true source sink).run.phase = .closed := by
  have hfuel : 20 * (Pullable.size source + 4) = 20 * Pullable.size source + 77 + 3 := by omega
  have hwork : (work (20 * (Pullable.size source + 4))
      { run := .start capacity true, source, sink : Scene σ κ }).run =
      { Run.start capacity true with puller := .stopped, pusher := .stopped } := by
    rw [hfuel]
    rfl
  rw [play]
  apply phase_windUp
  all_goals
    rw [hwork]
    rfl

end Scene

namespace Engine
variable {σ κ : Type} {e e' : Engine σ κ} {ends : σ × κ} {es : List Event}
variable {startedAt finishedAt : Calendar.Instant} {result : Except Error Metrics}

theorem outcome_of_startAlong_cancelled (hc : e.check = .ok ends)
    (hs : e.startAlong true es startedAt finishedAt = some (result, e')) :
    result = .error .cancelled ∧
    e'.metrics = { startedAt := some startedAt, finishedAt := some finishedAt } := by
  obtain ⟨r,hr,hp,hres,hm,_⟩ := startAlong_eq_some hc hs
  obtain ⟨hcancelled,hmetrics⟩ := Run.outcome_of_cancelled hr hp startedAt finishedAt
  rw [hres, hcancelled]
  exact ⟨rfl,hm.trans hmetrics⟩

/-- Whatever its endpoints are, such a start comes to its end. -/
theorem exists_startAlong_cancelled [Pullable σ] [Pushable κ] (hc : e.check = .ok ends)
    (startedAt finishedAt : Calendar.Instant) :
    ∃ es, e.startAlong true es startedAt finishedAt =
      some ((e.start true startedAt finishedAt).result,
        (e.start true startedAt finishedAt).engine) := by
  refine start_eq_startAlong e true startedAt finishedAt ?_
  intro scene hscene
  simp only [start, hc, Option.some.injEq] at hscene
  rw [← hscene]
  exact Scene.phase_play_of_cancelled _ _ _

end Engine

/-- Cancellation and errors start nothing new. The token has fired exactly if the caller has fired it
or a read or a write has failed. From then on no call begins, each worker may see the one call to its
end that it is inside, and what has not been offered to the sink is never written. So if the last of
some reads fails, the run makes fewer writes than these reads; a failed write is the last one; and a
start whose token has fired before makes no calls, comes to its end whatever its endpoints are,
counts nothing, and is cancelled whatever becomes of closing. The queue is within the limit of its
channel, and no close panics. -/
theorem Engine.firing_starts_nothing {σ κ : Type} (e : Engine σ κ) {cancelled : Bool}
    {before after : List Event} {r r' : Run}
    (hb : (Run.start e.settings.queueCapacity cancelled).steps before = some r)
    (ha : r.steps after = some r') :
    (r.fired = true ↔ CallerFiredIn cancelled before ∨ before.filterMap Event.failure? ≠ []) ∧
    (r.fired = true →
      Event.readStarts ∉ after ∧ Event.writeStarts ∉ after ∧
      (readCallsIn after).length ≤ r.puller.openCall.length ∧
      (writeCallsIn after).length ≤ r.pusher.openCall.length ∧
      (Run.start e.settings.queueCapacity cancelled).batchesWrittenIn (before ++ after) <+:
        (Run.start e.settings.queueCapacity cancelled).batchesOfferedIn before) ∧
    (∀ cause rest, after = .readReturns (.error cause) :: rest →
      writesStartedIn (before ++ after) < readsStartedIn before) ∧
    (∀ cause rest, after = .writeReturns (.error cause) :: rest → writeCallsIn rest = []) ∧
    (cancelled = true → readCallsIn before = [] ∧ writeCallsIn before = [] ∧
      ∀ ends startedAt finishedAt, e.check = .ok ends →
        (∀ result e', e.startAlong cancelled before startedAt finishedAt = some (result, e') →
          result = .error .cancelled ∧
          e'.metrics = { startedAt := some startedAt, finishedAt := some finishedAt }) ∧
        ∀ [Pullable σ] [Pushable κ],
          (e.start cancelled startedAt finishedAt).result = .error .cancelled ∧
          (e.start cancelled startedAt finishedAt).engine.metrics =
            { startedAt := some startedAt, finishedAt := some finishedAt }) := by
  refine ⟨Run.fired_iff hb,?_,?_,?_,?_⟩
  · intro hf
    have hq := Run.quiet_of_fired hf ha
    have hr := hq.readCalls_le
    have hw := hq.writeCalls_le
    exact ⟨hq.no_readStarts,hq.no_writeStarts,by omega,by omega,
      Run.batchesWrittenIn_prefix_offered hb hf ha⟩
  · rintro cause rest rfl
    exact Run.writesStartedIn_lt_of_readFails hb ha
  · rintro cause rest rfl
    exact Run.writeCallsIn_eq_nil_of_writeFails ha
  · rintro rfl
    obtain ⟨hr,hw⟩ := Run.no_calls_of_cancelled hb
    refine ⟨hr,hw,?_⟩
    intro ends startedAt finishedAt hc
    refine ⟨fun _ _ hs => outcome_of_startAlong_cancelled hc hs,?_⟩
    intro _ _
    obtain ⟨es,hs⟩ := exists_startAlong_cancelled hc startedAt finishedAt
    exact outcome_of_startAlong_cancelled hc hs

/-- The caller cancels with one batch being written, one in the queue and a third read under way. -/
def cancelledWhileBusy (a b : Batch) : List Event :=
  handOver a 1 ++ handOver b 1 ++ [.readStarts, .receives, .writeStarts, .callerCancels]

/-- Both calls may still succeed, but of the three batches only the first one is written. -/
theorem firing_starts_nothing_cancelledWhileBusy :
    let e : Engine Unit Unit := Engine.ofEndpoints () ()
    let before := cancelledWhileBusy (oneCell 3) (oneCell 5)
    let after : List Event := [.writeReturns (.ok ()), .readReturns (.ok (some (oneCell 7))),
      .pullerStops, .pusherStops]
    ∃ r r', (Run.start e.settings.queueCapacity false).steps before = some r ∧
      r.steps after = some r' ∧ r.fired = true ∧
      batchesReadIn (before ++ after) = [oneCell 3, oneCell 5, oneCell 7] ∧
      (Run.start e.settings.queueCapacity false).batchesWrittenIn (before ++ after) <+:
        [oneCell 3] := by
  intro e before after
  have hs : ∃ r r', (Run.start e.settings.queueCapacity false).steps before = some r ∧
      r.steps after = some r' ∧ r.fired = true := ⟨_,_,rfl,rfl,rfl⟩
  obtain ⟨r,r',hb,ha,hf⟩ := hs
  obtain ⟨_,hquiet,_⟩ := Engine.firing_starts_nothing e hb ha
  exact ⟨r,r',hb,ha,hf,rfl,(hquiet hf).2.2.2.2⟩

end Tabular.Transfer
