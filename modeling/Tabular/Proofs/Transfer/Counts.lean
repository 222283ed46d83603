import Mathlib.Algebra.GroupWithZero.Nat
import Tabular.Proofs.Transfer.Writes

/-! # What a run counts

Each worker counts for itself what its endpoint has answered, and its counts come home when it is
joined. They agree with the history of the run at every moment, so the metrics of a transfer do so
at its end, except that the counts of a worker that panicked are lost.
-/
namespace Tabular.Transfer

def rowsOf (bs : List Batch) : Nat := (bs.map Batch.rows).sum

@[simp] theorem rowsOf_append (bs cs : List Batch) : rowsOf (bs ++ cs) = rowsOf bs + rowsOf cs := by
  simp [rowsOf]

theorem rowsOf_mono {bs cs : List Batch} (h : bs <+: cs) : rowsOf bs ≤ rowsOf cs := by
  obtain ⟨ds,rfl⟩ := h
  rw [rowsOf_append]
  omega

namespace Run
variable {r r' : Run} {e : Event} {es : List Event} {capacity : Nat} {cancelled : Bool}

/-- The counts of a run are those of what has been read and written. -/
structure Counted (read written : List Batch) (r : Run) : Prop where
  batchesRead : r.batchesRead = read.length
  rowsRead : r.rowsRead = rowsOf read
  batchesWritten : r.batchesWritten = written.length
  rowsWritten : r.rowsWritten = rowsOf written

theorem Moves.counted {read written : List Batch} (hm : Moves r e r')
    (h : Counted read written r) :
    Counted (read ++ e.batchRead?.toList) (written ++ (r.batchWritten? e).toList) r' := by
  obtain ⟨hb,hr,hw,hs⟩ := h
  cases hm
  case readGives b hp =>
    refine ⟨?_,?_,?_,?_⟩
    · simp [Event.batchRead?, hb]
    · simp [Event.batchRead?, hr, rowsOf]
    · simpa [batchWritten?] using hw
    · simpa [batchWritten?] using hs
  case writeSucceeds b hp =>
    refine ⟨?_,?_,?_,?_⟩
    · simpa [Event.batchRead?] using hb
    · simpa [Event.batchRead?] using hr
    · simp [batchWritten?, hp, hw]
    · simp [batchWritten?, hp, hs, rowsOf]
  all_goals
    simp only [Event.batchRead?, batchWritten?, Option.toList_none, List.append_nil]
    exact ⟨hb,hr,hw,hs⟩

theorem counted_of_steps (h : (start capacity cancelled).steps es = some r) :
    Counted (batchesReadIn es) ((start capacity cancelled).batchesWrittenIn es) r := by
  refine steps_induction (motive := fun es r => Counted (batchesReadIn es)
    ((start capacity cancelled).batchesWrittenIn es) r) ⟨rfl,rfl,rfl,rfl⟩ ?_ h
  intro es r e r' hs ih hm
  rw [batchesReadIn_concat, batchesWrittenIn_concat hs]
  exact hm.counted ih

/-- A view that shows the events of one kind shows none exactly if there are none. -/
theorem filterMap_eq_nil_iff_of_kind {α : Type} {view : Event → Option α} {kind : String → Event}
    (hv : ∀ e, view e = none ↔ ∀ text, e ≠ kind text) :
    es.filterMap view = [] ↔ ∀ text, kind text ∉ es := by
  rw [List.filterMap_eq_nil_iff]
  constructor
  · intro h text hmem
    exact (hv _).mp (h _ hmem) text rfl
  · intro h e hmem
    refine (hv e).mpr ?_
    rintro text rfl
    exact h text hmem

theorem puller_ne_panicked_iff (h : (start capacity cancelled).steps es = some r) :
    (∀ text, r.puller ≠ .panicked text) ↔ ∀ text, Event.readPanics text ∉ es := by
  have hleft : pullerPanic r.puller = [] ↔ ∀ text, r.puller ≠ .panicked text := by
    cases r.puller <;> simp [pullerPanic]
  rw [← hleft, (recorded_of_steps h).pulled]
  exact filterMap_eq_nil_iff_of_kind fun e => by cases e <;> simp [Event.pullerPanic?]

theorem pusher_ne_panicked_iff (h : (start capacity cancelled).steps es = some r) :
    (∀ text, r.pusher ≠ .panicked text) ↔ ∀ text, Event.writePanics text ∉ es := by
  have hleft : pusherPanic r.pusher = [] ↔ ∀ text, r.pusher ≠ .panicked text := by
    cases r.pusher <;> simp [pusherPanic]
  rw [← hleft, (recorded_of_steps h).pushed]
  exact filterMap_eq_nil_iff_of_kind fun e => by cases e <;> simp [Event.pusherPanic?]

theorem metrics_of_no_readPanics (h : (start capacity cancelled).steps es = some r)
    (hn : ∀ text, .readPanics text ∉ es) (startedAt finishedAt : Calendar.Instant) :
    (r.metrics startedAt finishedAt).batchesRead = (batchesReadIn es).length ∧
    (r.metrics startedAt finishedAt).rowsRead = rowsOf (batchesReadIn es) := by
  have hp := (puller_ne_panicked_iff h).mpr hn
  obtain ⟨hb,hr,_,_⟩ := counted_of_steps h
  cases hl : r.puller with
  | panicked text => exact absurd hl (hp text)
  | _ => simp [metrics, hl, hb, hr]

theorem metrics_of_no_writePanics (h : (start capacity cancelled).steps es = some r)
    (hn : ∀ text, .writePanics text ∉ es) (startedAt finishedAt : Calendar.Instant) :
    (r.metrics startedAt finishedAt).batchesWritten = writesSucceededIn es ∧
    (r.metrics startedAt finishedAt).rowsWritten =
      rowsOf ((start capacity cancelled).batchesWrittenIn es) := by
  have hp := (pusher_ne_panicked_iff h).mpr hn
  obtain ⟨_,_,hb,hr⟩ := counted_of_steps h
  rw [length_batchesWrittenIn h] at hb
  cases hs : r.pusher with
  | panicked text => exact absurd hs (hp text)
  | _ => simp [metrics, hs, hb, hr]

/-- What has been written is within what has been read, and not far behind it. -/
theorem written_within_read (h : (start capacity cancelled).steps es = some r) :
    writesSucceededIn es ≤ (batchesReadIn es).length ∧
    (batchesReadIn es).length ≤ writesSucceededIn es + capacity + 2 ∧
    rowsOf ((start capacity cancelled).batchesWrittenIn es) ≤ rowsOf (batchesReadIn es) := by
  have ho := offered_of_steps h
  have hpre := ho.written_offered.trans ho.offered_read
  have hle := hpre.length_le
  have ht := throttled_of_steps h
  have hread := ht.read_le
  have hbegun := ht.begun_le_capacity
  rw [length_batchesWrittenIn h] at hle hbegun
  rw [capacity_of_steps h, start_capacity] at hbegun
  exact ⟨hle,by omega,rowsOf_mono hpre⟩

/-- A run that succeeds has written all that it has read. -/
theorem batchesWrittenIn_of_result_ok (h : (start capacity cancelled).steps es = some r)
    (hp : r.phase = .closed) (hr : r.result = .ok ()) :
    (start capacity cancelled).batchesWrittenIn es = batchesReadIn es := by
  obtain ⟨hu,hl,hs⟩ := undisturbed_of_result_ok h hp hr
  have hkept := (ordered_of_steps h).kept (.inr hu)
  have hq := (consistent_of_steps h).queue_nil (by rw [hs]; rfl)
  simpa [hl, hs, hq, Puller.batches, Pusher.batches] using hkept.symm

end Run

/-- The metrics of a transfer account for the calls of its run, whatever the interleaving and however
the run ends. A worker that has not panicked brings home how many of its calls gave or took a batch,
and the rows of these batches. If neither has panicked, what was written is within what was read,
and behind it by no more than the queue and two batches. A start that succeeds returns the metrics
that the engine keeps, and all that was read has then been written. -/
theorem Engine.metrics_account_for_calls {σ κ : Type} {e e' : Engine σ κ} {ends : σ × κ}
    (hc : e.check = .ok ends) {cancelled : Bool} {es : List Event}
    {startedAt finishedAt : Calendar.Instant} {result : Except Error Metrics}
    (h : e.startAlong cancelled es startedAt finishedAt = some (result, e')) :
    ((∀ text, .readPanics text ∉ es) →
      e'.metrics.batchesRead = (batchesReadIn es).length ∧
      e'.metrics.rowsRead = rowsOf (batchesReadIn es)) ∧
    ((∀ text, .writePanics text ∉ es) →
      e'.metrics.batchesWritten = writesSucceededIn es ∧
      e'.metrics.rowsWritten =
        rowsOf ((Run.start e.settings.queueCapacity cancelled).batchesWrittenIn es)) ∧
    ((∀ text, .readPanics text ∉ es) → (∀ text, .writePanics text ∉ es) →
      e'.metrics.batchesWritten ≤ e'.metrics.batchesRead ∧
      e'.metrics.batchesRead ≤ e'.metrics.batchesWritten + e.settings.queueCapacity + 2 ∧
      e'.metrics.rowsWritten ≤ e'.metrics.rowsRead) ∧
    (∀ metrics, result = .ok metrics → metrics = e'.metrics ∧
      metrics.batchesWritten = metrics.batchesRead ∧ metrics.rowsWritten = metrics.rowsRead) := by
  obtain ⟨r,hs,hp,hres,hm,_⟩ := startAlong_eq_some hc h
  have hread : (∀ text, .readPanics text ∉ es) →
      e'.metrics.batchesRead = (batchesReadIn es).length ∧
      e'.metrics.rowsRead = rowsOf (batchesReadIn es) := by
    rw [hm]
    exact fun hn => Run.metrics_of_no_readPanics hs hn startedAt finishedAt
  have hwritten : (∀ text, .writePanics text ∉ es) →
      e'.metrics.batchesWritten = writesSucceededIn es ∧
      e'.metrics.rowsWritten =
        rowsOf ((Run.start e.settings.queueCapacity cancelled).batchesWrittenIn es) := by
    rw [hm]
    exact fun hn => Run.metrics_of_no_writePanics hs hn startedAt finishedAt
  refine ⟨hread,hwritten,?_,?_⟩
  · intro hnr hnw
    obtain ⟨hb,hr⟩ := hread hnr
    obtain ⟨hw,hrows⟩ := hwritten hnw
    rw [hb, hr, hw, hrows]
    exact Run.written_within_read hs
  · intro metrics hok
    have hr : r.result = .ok () := by
      cases hr : r.result with
      | ok _ => rfl
      | error cause => rw [hres, hr] at hok; cases hok
    have hmet : metrics = e'.metrics := by
      rw [hres, hr] at hok
      cases hok
      rfl
    -- both workers have stopped by themselves, so the counts of both are there
    obtain ⟨_,hl,hw⟩ := Run.undisturbed_of_result_ok hs hp hr
    obtain ⟨hb,hrows⟩ := hread ((Run.puller_ne_panicked_iff hs).mp (by simp [hl]))
    obtain ⟨hb',hrows'⟩ := hwritten ((Run.pusher_ne_panicked_iff hs).mp (by simp [hw]))
    have hall := Run.batchesWrittenIn_of_result_ok hs hp hr
    rw [← Run.length_batchesWrittenIn hs, hall] at hb'
    rw [hall] at hrows'
    rw [hmet]
    exact ⟨rfl,hb'.trans hb.symm,hrows'.trans hrows.symm⟩

/-- The caller cancels while the first of two batches is written and the second waits to be queued.
That write still succeeds, and the second batch is dropped. -/
def cancelledBetween (a b : Batch) : List Event :=
  [.readStarts, .readReturns (.ok (some a)), .sends, .readStarts, .receives, .writeStarts,
    .readReturns (.ok (some b)), .callerCancels, .writeReturns (.ok ()), .pullerStops,
    .pusherStops, .joins, .sourceCloses none, .sinkCloses none]

theorem metrics_account_for_calls_cancelledBetween :
    let e : Engine Unit Unit := (Engine.ofEndpoints () ()).withSettings { queueCapacity := 1 }
    let es := cancelledBetween (oneCell 3) (oneCell 5)
    e.check = .ok ((), ()) ∧
    ∃ result e', e.startAlong false es ⟨0,0⟩ ⟨1,0⟩ = some (result, e') ∧
      e'.metrics.batchesRead = 2 ∧ e'.metrics.rowsRead = 2 ∧
      e'.metrics.batchesWritten = 1 ∧ e'.metrics.rowsWritten = 1 ∧
      e'.metrics.batchesRead ≤ e'.metrics.batchesWritten + 1 + 2 := by
  intro e es
  have hc : e.check = .ok ((), ()) := rfl
  have hs : ∃ result e', e.startAlong false es ⟨0,0⟩ ⟨1,0⟩ = some (result, e') := ⟨_,_,rfl⟩
  obtain ⟨result,e',hs⟩ := hs
  obtain ⟨hread,hwritten,hboth,_⟩ := Engine.metrics_account_for_calls hc hs
  have hnr : ∀ text, Event.readPanics text ∉ es := by simp [es, cancelledBetween]
  have hnw : ∀ text, Event.writePanics text ∉ es := by simp [es, cancelledBetween]
  obtain ⟨hb,hr⟩ := hread hnr
  obtain ⟨hw,hrows⟩ := hwritten hnw
  exact ⟨hc,result,e',hs,hb,hr,hw,hrows,(hboth hnr hnw).2.1⟩

end Tabular.Transfer
