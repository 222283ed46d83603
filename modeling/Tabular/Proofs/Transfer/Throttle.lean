import Tabular.Proofs.Transfer.Order

/-! # The queue is a throttle

The puller begins a read only when it has handed over what it read before, so the reads begun run
ahead of the writes that succeeded by what is with the pusher and in the queue, and by the one read
or batch the puller is at. A pusher that ends drops what it and the queue hold; nothing is handed
over any more from then on, so the room that those batches took is never taken a second time.
-/
namespace Tabular.Transfer

def Event.startsRead : Event → Bool
  | readStarts => true
  | _ => false

def readsStartedIn (es : List Event) : Nat := es.countP Event.startsRead

@[simp] theorem readsStartedIn_concat (es : List Event) (e : Event) :
    readsStartedIn (es ++ [e]) = readsStartedIn es + e.startsRead.toNat := by
  cases h : e.startsRead <;> simp [readsStartedIn, h]

/-- The read that a puller is at, or has been at since it last handed a batch over. -/
def Puller.reads : Puller → Nat
  | .idle => 0
  | _ => 1

/-- The read that has not given a batch yet. -/
def Puller.waits : Puller → Nat
  | .reading => 1
  | _ => 0

theorem Puller.reads_le (p : Puller) : p.reads ≤ 1 := by
  cases p <;> simp [Puller.reads]

theorem Pusher.length_batches_le (p : Pusher) : p.batches.length ≤ 1 := by
  cases p <;> simp [Pusher.batches]

/-- The puller reads a batch and hands it over, a number of times. -/
def handOver (b : Batch) : Nat → List Event
  | 0 => []
  | n + 1 => handOver b n ++ [.readStarts, .readReturns (.ok (some b)), .sends]

theorem batchesReadIn_handOver (b : Batch) (n : Nat) :
    batchesReadIn (handOver b n) = List.replicate n b := by
  induction n with
  | zero => rfl
  | succ n ih =>
    rw [handOver, batchesReadIn_append, ih, List.replicate_succ']
    rfl

namespace Run
variable {r r' : Run} {e : Event} {es : List Event} {capacity : Nat} {cancelled : Bool}

/-- The batches between the puller and the writes that succeeded. Behind a pusher that has ended,
all the room there is counts as taken. -/
def ahead (r : Run) : Nat :=
  if r.pusher.ended then r.capacity + 1 else r.pusher.batches.length + r.queue.length

theorem ahead_of_ended (he : r.pusher.ended = true) : r.ahead = r.capacity + 1 := if_pos he

theorem ahead_of_not_ended (he : r.pusher.ended = false) :
    r.ahead = r.pusher.batches.length + r.queue.length := if_neg (by simp [he])

theorem ahead_le (hq : r.queue.length ≤ r.capacity) : r.ahead ≤ r.capacity + 1 := by
  have hp := Pusher.length_batches_le r.pusher
  unfold ahead
  split <;> omega

@[simp] theorem start_capacity : (start capacity cancelled).capacity = capacity := rfl

theorem Moves.capacity_eq (hm : Moves r e r') : r'.capacity = r.capacity := by
  cases hm <;> rfl

theorem capacity_of_steps {r₀ : Run} (h : r₀.steps es = some r) : r.capacity = r₀.capacity :=
  steps_induction (motive := fun _ r => r.capacity = r₀.capacity) rfl
    (fun _ hc hm => hm.capacity_eq.trans hc) h

/-- The queue is never longer than it may be. -/
theorem Moves.queue_le (hm : Moves r e r') (hq : r.queue.length ≤ r.capacity) :
    r'.queue.length ≤ r'.capacity := by
  cases hm with
  | sends hp hf he hroom =>
    rw [List.length_append]
    exact hroom
  | receives hp hqs hf =>
    rw [hqs, List.length_cons] at hq
    exact Nat.le_of_succ_le hq
  | writeFails | writePanics | pusherStops => exact Nat.zero_le _
  | _ => exact hq

/-- A read that begins takes room, and only a write that succeeds gives it back. -/
theorem Moves.ahead_le (hm : Moves r e r') (hq : r.queue.length ≤ r.capacity) :
    r.ahead + r.puller.reads + e.startsRead.toNat ≤
      r'.ahead + r'.puller.reads + (r.batchWritten? e).toList.length := by
  have hroom := Run.ahead_le hq
  have hl := Puller.reads_le r.puller
  cases hm with
  | sends hp hf he hroom =>
    rw [ahead_of_not_ended he, ahead_of_not_ended (by exact he)]
    simp only [hp, Puller.reads, Event.startsRead, List.length_append, List.length_singleton,
      Bool.toNat_false]
    omega
  | receives hp hqs hf =>
    rw [ahead_of_not_ended (by rw [hp]; rfl), ahead_of_not_ended (by rfl)]
    simp only [hp, hqs, Pusher.batches, Event.startsRead, List.length_cons, List.length_nil,
      Bool.toNat_false]
    omega
  | writeSucceeds hp =>
    rw [ahead_of_not_ended (by rw [hp]; rfl), ahead_of_not_ended (by rfl)]
    simp only [hp, batchWritten?, Pusher.batches, Event.startsRead, Option.toList_some,
      List.length_cons, List.length_nil, Bool.toNat_false]
    omega
  | writeStarts hp hf =>
    rw [ahead_of_not_ended (by rw [hp]; rfl), ahead_of_not_ended (by rfl)]
    simp [hp, Pusher.batches, Event.startsRead, batchWritten?]
  | writeFails hp | writePanics hp | pusherStops =>
    -- what is dropped gives no room back: behind a pusher that has ended all room counts as taken
    rw [ahead_of_ended (r := endPusher _ _) rfl]
    simp only [Event.startsRead, endPusher, fail, Bool.toNat_false]
    omega
  | readStarts hp hf => simp [ahead, hp, Puller.reads, Event.startsRead]
  | readGives hp | readEnds hp | readFails hp | readPanics hp =>
    simp [ahead, hp, fail, Puller.reads, Event.startsRead]
  | pullerStops =>
    change r.ahead + r.puller.reads + 0 ≤ r.ahead + 1 + 0
    omega
  | callerCancels | joins | sourceCloses | sinkCloses => simp [ahead, Event.startsRead]

/-- A batch is read by a read that has begun. -/
theorem Moves.waits_le (hm : Moves r e r') :
    e.batchRead?.toList.length + r'.puller.waits ≤ r.puller.waits + e.startsRead.toNat := by
  cases hm <;> simp_all [Event.batchRead?, Event.startsRead, Puller.waits, fail, endPusher]

/-- How far the reads begun and the batches read are ahead of the writes that succeeded. -/
structure Throttled (begun read written : Nat) (r : Run) : Prop where
  queue_le : r.queue.length ≤ r.capacity
  begun_le : begun ≤ written + r.ahead + r.puller.reads
  read_le : read + r.puller.waits ≤ begun

theorem Throttled.begun_le_capacity {begun read written : Nat}
    (h : Throttled begun read written r) : begun ≤ written + r.capacity + 2 := by
  have hb := h.begun_le
  have ha := Run.ahead_le h.queue_le
  have hp := Puller.reads_le r.puller
  omega

theorem throttled_start : Throttled 0 0 0 (start capacity cancelled) := by
  constructor <;> simp [start, Puller.waits]

theorem Moves.throttled {begun read written : Nat} (hm : Moves r e r')
    (h : Throttled begun read written r) :
    Throttled (begun + e.startsRead.toNat) (read + e.batchRead?.toList.length)
      (written + (r.batchWritten? e).toList.length) r' := by
  obtain ⟨hq,hb,hl⟩ := h
  have ha := hm.ahead_le hq
  have hw := hm.waits_le
  exact ⟨hm.queue_le hq,by omega,by omega⟩

theorem throttled_of_steps (h : (start capacity cancelled).steps es = some r) :
    Throttled (readsStartedIn es) (batchesReadIn es).length
      ((start capacity cancelled).batchesWrittenIn es).length r := by
  refine steps_induction (motive := fun es r => Throttled (readsStartedIn es)
    (batchesReadIn es).length ((start capacity cancelled).batchesWrittenIn es).length r)
    throttled_start ?_ h
  intro es r e r' hs ih hm
  rw [readsStartedIn_concat, batchesReadIn_concat, batchesWrittenIn_concat hs, List.length_append,
    List.length_append]
  exact hm.throttled ih

/-- An idle puller hands over as many batches as the queue has room for. -/
theorem steps_handOver (b : Batch) {n : Nat} (hp : r.puller = .idle) (hf : r.fired = false)
    (he : r.pusher.ended = false) (hq : r.queue.length + n ≤ r.capacity) :
    ∃ r', r.steps (handOver b n) = some r' ∧ r'.puller = .idle ∧ r'.fired = false ∧
      r'.pusher = r.pusher ∧ r'.queue.length = r.queue.length + n := by
  induction n with
  | zero => exact ⟨r,rfl,hp,hf,rfl,rfl⟩
  | succ n ih =>
    obtain ⟨r₁,hs,hp₁,hf₁,he₁,hq₁⟩ := ih (by omega)
    have hroom : r₁.queue.length < r₁.capacity := by
      rw [capacity_of_steps hs]
      omega
    refine ⟨{ r₁ with
      queue := r₁.queue ++ [b]
      batchesRead := r₁.batchesRead + 1
      rowsRead := r₁.rowsRead + b.rows },?_,hp₁,hf₁,he₁,?_⟩
    · rw [handOver, steps_append, hs]
      simp [steps, step, pull, hp₁, hf₁, he₁, he, hroom]
    · simp only [List.length_append, List.length_singleton]
      omega

/-- The bounds are reached: the pusher is about to write the first batch, the queue is full, and the
puller holds one batch more. -/
theorem exists_throttle_reached (b : Batch) (hc : 1 ≤ capacity) :
    ∃ es r, (start capacity false).steps es = some r ∧ r.queue.length = capacity ∧
      (start capacity false).batchesWrittenIn es = [] ∧ readsStartedIn es = capacity + 2 ∧
      (batchesReadIn es).length = capacity + 2 := by
  -- the pusher takes the one batch there is, and the puller fills the queue behind it
  obtain ⟨r₁,h₁,hp₁,hf₁,he₁,hq₁⟩ :=
    steps_handOver (r := start capacity false) (n := 1) b rfl rfl rfl (by simpa [start] using hc)
  obtain ⟨first,hfirst⟩ := List.length_eq_one_iff.mp hq₁
  let r₂ : Run := { r₁ with pusher := .holding first, queue := [] }
  have h₂ : r₁.steps [.receives] = some r₂ := by
    have hm := step_eq_some_iff.mpr (.receives he₁ hfirst hf₁)
    simpa [steps] using hm
  obtain ⟨r₃,h₃,hp₃,hf₃,he₃,hq₃⟩ := steps_handOver (r := r₂) (n := capacity) b hp₁ hf₁ rfl
    (by simp [r₂, capacity_of_steps h₁, start])
  let es := handOver b 1 ++ [.receives] ++ handOver b capacity ++
    [.readStarts, .readReturns (.ok (some b))]
  have hs : (start capacity false).steps es = some { r₃ with
      puller := .holding b
      batchesRead := r₃.batchesRead + 1
      rowsRead := r₃.rowsRead + b.rows } := by
    simp only [es, steps_append, h₁, h₂, h₃, Option.bind_some]
    simp [steps, step, pull, hp₃, hf₃]
  have hread : (batchesReadIn es).length = capacity + 2 := by
    simp only [es, batchesReadIn_append, batchesReadIn_handOver, List.length_append,
      List.length_replicate]
    change 1 + 0 + capacity + 1 = capacity + 2
    omega
  have hroom : r₃.queue.length = capacity := by simpa [r₂] using hq₃
  -- nothing has been dropped, so what is read and not in the run any more has been written
  have hkept := congrArg List.length ((ordered_of_steps hs).kept (.inl ⟨rfl,by rw [he₃]; rfl⟩))
  simp only [hread, he₃, r₂, hroom, Pusher.batches, Puller.batches, List.length_append,
    List.length_singleton] at hkept
  have ht := throttled_of_steps hs
  have hb := ht.begun_le_capacity
  have hl := ht.read_le
  rw [capacity_of_steps hs, start_capacity] at hb
  exact ⟨es,_,hs,hroom,List.eq_nil_of_length_eq_zero (by omega),by omega,hread⟩

end Run

/-- The queue is a real throttle. At every moment of every run, however it goes on or has ended, the
queue holds no more batches than it may, and the reads begun and the batches read are at most as
many as the writes that succeeded, the room of the queue, one batch with the pusher and one read or
batch with the puller. -/
theorem Engine.queue_throttles {σ κ : Type} (e : Engine σ κ) {cancelled : Bool} {es : List Event}
    {r : Run} (h : (Run.start e.settings.queueCapacity cancelled).steps es = some r) :
    r.queue.length ≤ e.settings.queueCapacity ∧
    readsStartedIn es ≤
      ((Run.start e.settings.queueCapacity cancelled).batchesWrittenIn es).length +
        e.settings.queueCapacity + 2 ∧
    (batchesReadIn es).length ≤
      ((Run.start e.settings.queueCapacity cancelled).batchesWrittenIn es).length +
        e.settings.queueCapacity + 2 := by
  have ht := Run.throttled_of_steps h
  have hq := ht.queue_le
  have hb := ht.begun_le_capacity
  have hl := ht.read_le
  rw [Run.capacity_of_steps h, Run.start_capacity] at hq hb
  exact ⟨hq,hb,by omega⟩

/-- A batch is being written, a queue with room for one is full, and a third read is under way. -/
def fullBehindWrite (b : Batch) : List Event :=
  handOver b 1 ++ [.receives, .writeStarts] ++ handOver b 1 ++ [.readStarts]

theorem queue_throttles_fullBehindWrite :
    let e : Engine Unit Unit := (Engine.ofEndpoints () ()).withSettings { queueCapacity := 1 }
    let es := fullBehindWrite (oneCell 3) ++
      [.writePanics "full", .readReturns (.ok (some (oneCell 5)))]
    ∃ r, (Run.start e.settings.queueCapacity false).steps es = some r ∧ r.queue.length ≤ 1 ∧
      (Run.start e.settings.queueCapacity false).batchesWrittenIn es = [] ∧
      readsStartedIn es = 3 ∧ readsStartedIn es ≤ 0 + 1 + 2 ∧
      (batchesReadIn es).length ≤ 0 + 1 + 2 := by
  intro e es
  have hs : ∃ r, (Run.start e.settings.queueCapacity false).steps es = some r := ⟨_,rfl⟩
  obtain ⟨r,hs⟩ := hs
  obtain ⟨hq,hb,hl⟩ := Engine.queue_throttles e hs
  exact ⟨r,hs,hq,rfl,rfl,hb,hl⟩

end Tabular.Transfer
