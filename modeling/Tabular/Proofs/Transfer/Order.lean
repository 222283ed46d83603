import Tabular.Proofs.Transfer.Starts

/-! # Batches arrive in order

A batch that has been read is written, with the pusher, in the queue or with the puller, and these
places in this order hold the batches in the order of the reads. Batches are lost from the end
only, when a worker has ended early; what has been written is then still a prefix of what has been
read, and after a transfer that succeeds it is all of it.
-/
namespace Tabular.Transfer

def Puller.batches : Puller → List Batch
  | .holding b => [b]
  | _ => []

def Pusher.batches : Pusher → List Batch
  | .holding b | .writing b => [b]
  | _ => []

/-- The beginning of a read that has not come to an end. -/
def Puller.openCall : Puller → List Event
  | .reading => [.readStarts]
  | _ => []

theorem Puller.batches_of_ended {p : Puller} (h : p.ended = true) : p.batches = [] := by
  cases p <;> simp_all [Puller.ended, Puller.batches]

theorem Pusher.batches_of_ended {p : Pusher} (h : p.ended = true) : p.batches = [] := by
  cases p <;> simp_all [Pusher.ended, Pusher.batches]

/-- The events of reads that give the batches of a list, one after the other. -/
def readsOf (bs : List Batch) : List Event :=
  bs.flatMap fun b => [.readStarts, .readReturns (.ok (some b))]

@[simp] theorem readsOf_concat (bs : List Batch) (b : Batch) :
    readsOf (bs ++ [b]) = readsOf bs ++ [.readStarts, .readReturns (.ok (some b))] := by
  simp [readsOf]

namespace Run
variable {r r' : Run} {e : Event} {es : List Event} {read written : List Batch}

/-- The token has not fired and the pusher has not panicked. -/
def Undisturbed (r : Run) : Prop := r.fired = false ∧ ∀ text, r.pusher ≠ .panicked text

/-- Left alone, a puller stops only at the end of the source. -/
theorem Undisturbed.not_pullerMayStop (h : r.Undisturbed) (hr : r.Consistent) :
    r.pullerMayStop = false := by
  rw [Bool.eq_false_iff]
  intro hm
  obtain ⟨hl,hf | ⟨_,hs⟩⟩ := pullerMayStop_iff.mp hm
  · exact Bool.eq_false_iff.mp h.1 hf
  · cases hp : r.pusher with
    | panicked text => exact h.2 text hp
    | stopped =>
      have hl' := hr.puller_ended hp h.1
      simp [hl] at hl'
    | _ => simp [hp, Pusher.ended] at hs

/-- No batch has been dropped: both workers are at work, or nothing has disturbed the run. -/
def Lossless (r : Run) : Prop :=
  r.puller.ended = false ∧ r.pusher.ended = false ∨ r.Undisturbed

theorem Moves.undisturbed (hm : Moves r e r') (h : r'.Undisturbed) : r.Undisturbed := by
  obtain ⟨hf,ht⟩ := h
  cases hm with
  | pusherStops hm =>
    refine ⟨hf,fun text hp => ?_⟩
    simp [pusherMayStop, hp] at hm
  | _ => simp_all [Undisturbed, fail, endPusher]

theorem Moves.lossless (hm : Moves r e r') (h : r'.Lossless) : r.Lossless := by
  rcases h with ⟨hl,hs⟩ | hu
  · left
    constructor
    · by_contra he
      rw [hm.puller_eq (by simpa using he)] at hl
      exact he hl
    · by_contra he
      rw [hm.pusher_eq (by simpa using he)] at hs
      exact he hs
  · exact .inr (hm.undisturbed hu)

/-- Where the batches are that have been read. -/
structure Ordered (read written : List Batch) (r : Run) : Prop where
  sent : written ++ r.pusher.batches ++ r.queue <+: read
  kept : r.Lossless → read = written ++ r.pusher.batches ++ r.queue ++ r.puller.batches

theorem ordered_start (capacity : Nat) (cancelled : Bool) :
    Ordered [] [] (start capacity cancelled) := by
  constructor <;> simp [start, Pusher.batches, Puller.batches]

theorem Ordered.of_same (h : Ordered read written r) (hs : r'.pusher.batches = r.pusher.batches)
    (hq : r'.queue = r.queue) (hl : r'.Lossless → r.Lossless)
    (hp : r'.Lossless → r'.puller.batches = r.puller.batches) : Ordered read written r' := by
  refine ⟨by rw [hs, hq]; exact h.sent,fun hn => ?_⟩
  rw [hs, hq, hp hn]
  exact h.kept (hl hn)

/-- A pusher that is stopped drops what it holds and what is queued. -/
theorem Ordered.of_dropped (h : Ordered read written r) (hs : r'.pusher.ended = true)
    (hq : r'.queue = []) (hu : ¬ r'.Undisturbed) : Ordered read written r' := by
  refine ⟨?_,?_⟩
  · rw [Pusher.batches_of_ended hs, hq, List.append_nil, List.append_nil]
    exact ((List.prefix_append _ _).trans (List.prefix_append _ _)).trans h.sent
  · rintro (⟨_,hn⟩ | hn)
    · simp [hs] at hn
    · exact absurd hn hu

theorem Moves.ordered (hm : Moves r e r') (hr : r.Consistent) (h : Ordered read written r) :
    Ordered (read ++ e.batchRead?.toList) (written ++ (r.batchWritten? e).toList) r' := by
  have hl := hm.lossless
  cases hm
  all_goals
    simp only [Event.batchRead?, batchWritten?, Option.toList_none, List.append_nil]
  case readStarts hp hf => exact h.of_same rfl rfl hl (fun _ => by rw [hp]; rfl)
  case readGives b hp =>
    refine ⟨h.sent.trans (List.prefix_append _ _),fun hn => ?_⟩
    rw [h.kept (hl hn), hp]
    simp [Puller.batches]
  case readEnds hp | readFails hp | readPanics hp =>
    exact h.of_same rfl rfl hl (fun _ => by rw [hp]; rfl)
  case sends b hp hf he hq =>
    have hk := h.kept (.inl ⟨by rw [hp]; rfl,he⟩)
    rw [hp] at hk
    refine ⟨?_,fun _ => ?_⟩
    · rw [hk, List.append_assoc _ r.queue]
      exact List.prefix_rfl
    · rw [hk]
      simp [Puller.batches]
  case pullerStops hm =>
    refine h.of_same rfl rfl hl (fun hn => ?_)
    -- a puller drops its batch only where the token has fired or the pusher is gone
    have hu : r.Undisturbed := hn.resolve_left (by simp [Puller.ended])
    exact absurd hm (Bool.eq_false_iff.mp (hu.not_pullerMayStop hr))
  case receives b bs hp hq hf =>
    obtain ⟨hs,hk⟩ := h
    simp only [hp, hq, Pusher.batches, List.append_nil] at hs hk
    refine ⟨by simpa [Pusher.batches] using hs,fun hn => ?_⟩
    simpa [Pusher.batches] using hk (hl hn)
  case writeStarts b hp hf => exact h.of_same (by rw [hp]; rfl) rfl hl (fun _ => rfl)
  case writeSucceeds b hp =>
    obtain ⟨hs,hk⟩ := h
    simp only [hp, Pusher.batches, Option.toList_some] at hs hk ⊢
    refine ⟨by simpa [Pusher.batches] using hs,fun hn => ?_⟩
    simpa [Pusher.batches] using hk (hl hn)
  case writeFails hp => exact h.of_dropped rfl rfl (by simp [Undisturbed, endPusher, fail])
  case writePanics hp => exact h.of_dropped rfl rfl (by simp [Undisturbed, endPusher])
  case pusherStops hm =>
    rcases (pusherMayStop_iff.mp hm).2 with hf | ⟨hp,hq,_⟩
    · exact h.of_dropped rfl rfl (by simp [Undisturbed, endPusher, hf])
    · exact h.of_same (by rw [hp]; rfl) hq.symm hl (fun _ => rfl)
  case callerCancels | joins | sourceCloses | sinkCloses =>
    exact h.of_same rfl rfl hl (fun _ => rfl)

theorem ordered_of_steps {capacity : Nat} {cancelled : Bool}
    (h : (start capacity cancelled).steps es = some r) :
    Ordered (batchesReadIn es) ((start capacity cancelled).batchesWrittenIn es) r := by
  refine steps_induction (motive := fun es r => Ordered (batchesReadIn es)
    ((start capacity cancelled).batchesWrittenIn es) r) (ordered_start capacity cancelled) ?_ h
  intro es r e r' hs ho hm
  rw [batchesReadIn_concat, batchesWrittenIn_concat hs]
  exact hm.ordered (consistent_of_steps hs) ho

/-- The calls of the source: it is read batch by batch, and a puller that has stopped undisturbed
has seen its end. -/
structure Exhausted (es : List Event) (r : Run) : Prop where
  going : r.puller.ended = false →
    readCallsIn es = readsOf (batchesReadIn es) ++ r.puller.openCall
  done : r.puller = .stopped → r.Undisturbed →
    readCallsIn es = readsOf (batchesReadIn es) ++ [.readStarts, .readReturns (.ok none)]

theorem exhausted_start (capacity : Nat) (cancelled : Bool) :
    Exhausted [] (start capacity cancelled) := by
  constructor <;> simp [start, readCallsIn, batchesReadIn, readsOf, Puller.openCall]

theorem Exhausted.of_same (h : Exhausted es r) (he : e.ofRead = false)
    (hl : r'.puller = r.puller) (hu : r'.Undisturbed → r.Undisturbed) :
    Exhausted (es ++ [e]) r' := by
  have hc : readCallsIn (es ++ [e]) = readCallsIn es := by simp [he]
  have hb : batchesReadIn (es ++ [e]) = batchesReadIn es := by
    simp [Event.batchRead?_eq_none he]
  constructor
  · rw [hc, hb, hl]
    exact h.going
  · rw [hc, hb, hl]
    exact fun hs hn => h.done hs (hu hn)

theorem Moves.exhausted (hm : Moves r e r') (hr : r.Consistent) (h : Exhausted es r) :
    Exhausted (es ++ [e]) r' := by
  have hu := hm.undisturbed
  cases hm
  case readStarts hp hf =>
    have hg := h.going (by rw [hp]; rfl)
    constructor <;> simp [hg, hp, Puller.openCall, Event.ofRead, Event.batchRead?]
  case readGives b hp =>
    have hg := h.going (by rw [hp]; rfl)
    constructor <;> simp [hg, hp, Puller.openCall, Event.ofRead, Event.batchRead?]
  case readEnds hp =>
    have hg := h.going (by rw [hp]; rfl)
    constructor <;> simp [hg, hp, Puller.openCall, Puller.ended, Event.ofRead, Event.batchRead?]
  case readFails hp => constructor <;> simp [Puller.ended, Undisturbed, fail]
  case readPanics hp => constructor <;> simp [Puller.ended]
  case sends b hp hf he hq =>
    have hg := h.going (by rw [hp]; rfl)
    constructor <;> simp [hg, hp, Puller.openCall, Event.ofRead, Event.batchRead?]
  case pullerStops hm =>
    refine ⟨by simp [Puller.ended],fun _ hn => ?_⟩
    exact absurd hm (Bool.eq_false_iff.mp ((hu hn).not_pullerMayStop hr))
  all_goals exact h.of_same rfl rfl hu

theorem exhausted_of_steps {capacity : Nat} {cancelled : Bool}
    (h : (start capacity cancelled).steps es = some r) : Exhausted es r :=
  steps_induction (motive := Exhausted) (exhausted_start capacity cancelled)
    (fun hs he hm => hm.exhausted (consistent_of_steps hs) he) h

/-- A run that succeeds has not been disturbed, and its workers have stopped of themselves. -/
theorem undisturbed_of_result_ok {capacity : Nat} {cancelled : Bool}
    (h : (start capacity cancelled).steps es = some r) (hp : r.phase = .closed)
    (hr : r.result = .ok ()) :
    r.Undisturbed ∧ r.puller = .stopped ∧ r.pusher = .stopped := by
  have hc := consistent_of_steps h
  have hn := recorded_of_steps h
  have he := errors_of_closed h hp
  obtain ⟨hl,hs⟩ := hc.both_ended (by simp [hp])
  have hslot : r.errors.slot = none := by
    cases hslot : r.errors.slot with
    | none => rfl
    | some failure => rw [result_of_slot hslot] at hr; cases hr
  have hcaller : r.callerFired = false := by
    by_contra hf
    rw [result_of_callerFired hslot (by simpa using hf)] at hr
    cases hr
  have hfired : r.fired = false := by
    by_contra hf
    rcases hc.cause (by simpa using hf) with hf' | hf'
    · simp [hcaller] at hf'
    · simp [hslot] at hf'
  -- a panic would have been recorded when the workers were joined
  have hall : failuresIn es = [] := by
    rw [he] at hslot
    simpa using hslot
  have hpanics : pullerPanic r.puller = [] ∧ pusherPanic r.pusher = [] := by
    rw [hn.pulled, hn.pushed]
    simp only [failuresIn, List.append_eq_nil_iff] at hall
    exact ⟨hall.1.2,hall.2⟩
  have hpuller : r.puller = .stopped := by
    cases hq : r.puller <;> simp_all [Puller.ended, pullerPanic]
  have hpusher : r.pusher = .stopped := by
    cases hq : r.pusher <;> simp_all [Pusher.ended, pusherPanic]
  exact ⟨⟨hfired,by simp [hpusher]⟩,hpuller,hpusher⟩

end Run

/-- Batches arrive in order, without loss or repetition, at every moment of every run: what has been
written is a prefix of what has been read, and while the token has not fired and the pusher has not
panicked the rest is with the pusher, in the queue and with the puller. A start that succeeds has
written all that was read, and its last read found the end of the source. -/
theorem Engine.batches_in_order {σ κ : Type} (e : Engine σ κ) {cancelled : Bool} {es : List Event}
    {r : Run} (h : (Run.start e.settings.queueCapacity cancelled).steps es = some r) :
    (Run.start e.settings.queueCapacity cancelled).batchesWrittenIn es <+: batchesReadIn es ∧
    (r.fired = false → (∀ text, r.pusher ≠ .panicked text) →
      batchesReadIn es = (Run.start e.settings.queueCapacity cancelled).batchesWrittenIn es ++
        r.pusher.batches ++ r.queue ++ r.puller.batches) ∧
    ∀ startedAt finishedAt metrics e',
      e.startAlong cancelled es startedAt finishedAt = some (.ok metrics, e') →
      e'.state = .completed ∧
      (Run.start e.settings.queueCapacity cancelled).batchesWrittenIn es = batchesReadIn es ∧
      readCallsIn es =
        readsOf (batchesReadIn es) ++ [.readStarts, .readReturns (.ok none)] := by
  have ho := Run.ordered_of_steps h
  refine ⟨?_,?_,?_⟩
  · exact ((List.prefix_append _ _).trans (List.prefix_append _ _)).trans ho.sent
  · intro hf ht
    exact ho.kept (.inr ⟨hf,ht⟩)
  · intro startedAt finishedAt metrics e' hs
    obtain ⟨ends,hc⟩ := check_of_startAlong_ok hs
    obtain ⟨r₁,h₁,hp,hr,_,hst⟩ := startAlong_eq_some hc hs
    obtain rfl : r = r₁ := Option.some.inj (h.symm.trans h₁)
    have hok : r.result = .ok () := by
      cases hres : r.result with
      | ok _ => rfl
      | error err => rw [hres] at hr; cases hr
    obtain ⟨hu,hl,hw⟩ := Run.undisturbed_of_result_ok h hp hok
    refine ⟨by rw [hst, hok]; rfl,?_,(Run.exhausted_of_steps h).done hl hu⟩
    have hk := ho.kept (.inr hu)
    have hq := (Run.consistent_of_steps h).queue_nil (by rw [hw]; rfl)
    simpa [hl, hw, hq, Puller.batches, Pusher.batches] using hk.symm

/-- Two batches go through a queue with room for one, and the second is read while the first is
written. -/
def relay (a b : Batch) : List Event :=
  [.readStarts, .readReturns (.ok (some a)), .sends, .readStarts, .receives, .writeStarts,
    .readReturns (.ok (some b)), .sends, .readStarts, .writeReturns (.ok ()), .receives,
    .readReturns (.ok none), .writeStarts, .writeReturns (.ok ()), .pusherStops, .joins,
    .sourceCloses none, .sinkCloses none]

def oneCell (i : Int) : Batch :=
  ⟨⟨[⟨"n",.int64,false⟩],.empty⟩,1,[[.int i]],rfl,fun _ h => List.mem_singleton.mp h ▸ rfl⟩

theorem batches_in_order_relay :
    let e : Engine Unit Unit := (Engine.ofEndpoints () ()).withSettings { queueCapacity := 1 }
    let es := relay (oneCell 3) (oneCell 5)
    (∃ r, (Run.start e.settings.queueCapacity false).steps es = some r) ∧
    (∃ m e', e.startAlong false es ⟨0,0⟩ ⟨1,0⟩ = some (.ok m, e')) ∧
    (Run.start e.settings.queueCapacity false).batchesWrittenIn es = batchesReadIn es := by
  refine ⟨⟨_,rfl⟩,⟨_,_,rfl⟩,?_⟩
  exact ((Engine.batches_in_order _ rfl).2.2 ⟨0,0⟩ ⟨1,0⟩ _ _ rfl).2.1

end Tabular.Transfer
