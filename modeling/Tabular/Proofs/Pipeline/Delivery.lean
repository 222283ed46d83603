import Tabular.Proofs.Delimited.Rows
import Tabular.Proofs.Pipeline.Schedule
import Tabular.Proofs.Transfer.Counts

/-! # Delivery

When the source yields batches up to its end, the sink takes them and closes, and the caller does
not cancel, a transfer moves just these batches, whatever the interleaving of its workers and the
room in its queue. At every moment the batches not yet read are those that the source still yields,
and those not yet written are those that the sink still takes.
-/
namespace Tabular
open Transfer

/-- Whether an event is one after which a run no longer succeeds. -/
def Transfer.Event.harms : Event → Bool
  | .callerCancels | .readReturns (.error _) | .readPanics _ | .writeReturns (.error _)
  | .writePanics _ | .sourceCloses (some _) | .sinkCloses (some _) => true
  | _ => false

namespace Transfer.Run
variable {r r' : Run} {e : Event}

/-- A run that has met no error, no panic and no cancellation. -/
structure Unharmed (r : Run) : Prop where
  fired : r.fired = false
  callerFired : r.callerFired = false
  slot : r.errors.slot = none
  closeError : r.closeError = none
  puller : ∀ text, r.puller ≠ .panicked text
  pusher : ∀ text, r.pusher ≠ .panicked text

theorem unharmed_start (capacity : Nat) : (start capacity false).Unharmed := by
  constructor <;> simp [start]

theorem Unharmed.undisturbed (h : r.Unharmed) : r.Undisturbed := ⟨h.fired,h.pusher⟩

theorem Unharmed.phaseAfterPuller (h : r.Unharmed) : r.phaseAfterPuller = .closingSink := by
  unfold Run.phaseAfterPuller
  split
  · next text hp => exact absurd hp (h.pusher text)
  · rfl

theorem Unharmed.phaseAfterJoin (h : r.Unharmed) : r.phaseAfterJoin = .closingSource := by
  unfold Run.phaseAfterJoin
  split
  · next text hp => exact absurd hp (h.puller text)
  · rfl

theorem Moves.unharmed (hm : Moves r e r') (he : e.harms = false) (h : r.Unharmed) :
    r'.Unharmed := by
  obtain ⟨hf,hc,hs,hce,hl,hp⟩ := h
  cases hm with
  | callerCancels | readFails | readPanics | writeFails | writePanics => cases he
  | joins hw hle hse =>
    have hpuller : pullerPanic r.puller = [] := by
      cases hq : r.puller <;> first | rfl | exact absurd hq (hl _)
    have hpusher : pusherPanic r.pusher = [] := by
      cases hq : r.pusher <;> first | rfl | exact absurd hq (hp _)
    exact ⟨hf,hc,by simpa [hpuller, hpusher] using hs,hce,hl,hp⟩
  | @sourceCloses err =>
    cases err with
    | none => exact ⟨hf,hc,hs,rfl,hl,hp⟩
    | some err => cases he
  | @sinkCloses err =>
    cases err with
    | none => exact ⟨hf,hc,hs,by simp [hce],hl,hp⟩
    | some err => cases he
  | readStarts | readGives | readEnds | sends | pullerStops =>
    exact ⟨hf,hc,hs,hce,by simp,hp⟩
  | receives | writeStarts | writeSucceeds | pusherStops =>
    exact ⟨hf,hc,hs,hce,hl,by simp [endPusher]⟩

theorem Unharmed.result (h : r.Unharmed) : r.result = .ok () := by
  rw [result_of_closeError h.slot h.callerFired, h.closeError]

/-- A run at whose end all its workers have stopped unharmed has written what it has read. -/
theorem Unharmed.read_eq_written {read written : List Batch} (h : r.Unharmed) (hr : r.Consistent)
    (ho : Ordered read written r) (hp : r.phase ≠ .working) : read = written := by
  obtain ⟨hl,hs⟩ := hr.both_ended hp
  have hkept := ho.kept (.inr h.undisturbed)
  rw [Pusher.batches_of_ended hs, Puller.batches_of_ended hl, hr.queue_nil hs] at hkept
  simpa using hkept

end Transfer.Run

namespace Transfer.Scene
variable {s s' : Scene Source FileSink} {e : Event} {es : List Event}
variable {batches read written : List Batch} {last : FileSink}

/-- A transfer of batches that has met nothing but what the batches bring with them. -/
structure Delivers (batches : List Batch) (last : FileSink) (read written : List Batch)
    (s : Scene Source FileSink) : Prop where
  run : s.run.Unharmed
  source : ∃ rest, batches = read ++ rest ∧
    if s.run.puller.ended then rest = [] else s.source.Yields rest
  sink : ∃ rest, batches = written ++ rest ∧
    if s.run.phase = .closed then s.sink = last else s.sink.Takes rest last

theorem Delivers.of_same (h : s.Delivers batches last read written) (hu : s'.run.Unharmed)
    (hl : s'.run.puller.ended = s.run.puller.ended)
    (hp : s'.run.phase = .closed ↔ s.run.phase = .closed) (hsource : s'.source = s.source)
    (hsink : s'.sink = s.sink) : s'.Delivers batches last read written := by
  refine ⟨hu,?_,?_⟩
  · rw [hl, hsource]
    exact h.source
  · simp only [hp, hsink]
    exact h.sink

/-- A move of its own takes nothing from the source and gives nothing to the sink. -/
theorem Delivers.moves {run : Run} (h : s.Delivers batches last read written)
    (hr : s.run.Consistent) (hu : e.unanswered = true) (he : e ≠ .callerCancels)
    (hrun : s.run.step e = some run) :
    ({ s with run } : Scene Source FileSink).Delivers batches last
      (read ++ e.batchRead?.toList) (written ++ (s.run.batchWritten? e).toList) := by
  have hm := Run.Moves.of_step hrun
  have hread : e.batchRead? = none := by cases e <;> first | rfl | cases hu
  have hwritten : s.run.batchWritten? e = none := by cases e <;> first | rfl | cases hu
  have hharms : e.harms = false := by
    cases e <;> first | rfl | exact absurd rfl he | cases hu
  have hunharmed := hm.unharmed hharms h.run
  rw [hread, hwritten, Option.toList_none, List.append_nil, List.append_nil]
  cases hm with
  | callerCancels => exact absurd rfl he
  | readStarts hp | sends hp => exact h.of_same hunharmed (by simp [hp, Puller.ended]) .rfl rfl rfl
  | pullerStops hm =>
    rw [h.run.undisturbed.not_pullerMayStop hr] at hm
    cases hm
  | receives | writeStarts | pusherStops => exact h.of_same hunharmed rfl .rfl rfl rfl
  | joins hw =>
    refine h.of_same hunharmed rfl ?_ rfl rfl
    simp [h.run.phaseAfterJoin, hw]
  | _ => cases hu

/-- A read takes the next batch from those that the source still yields, or finds that there is no
more. -/
theorem Delivers.reads {run : Run} (h : s.Delivers batches last read written)
    (hrun : s.run.step (.readReturns s.source.read.1) = some run) :
    ({ s with run, source := s.source.read.2 } : Scene Source FileSink).Delivers batches last
      (read ++ (Event.readReturns s.source.read.1).batchRead?.toList) written := by
  have hm := Run.Moves.of_step hrun
  have hreading : s.run.puller = .reading := by
    generalize s.source.read.1 = answer at hm
    cases hm <;> assumption
  obtain ⟨rest,hbatches,hyields⟩ := h.source
  rw [hreading, if_neg (by simp [Puller.ended])] at hyields
  cases hyields with
  | ends hread =>
    rw [hread] at hm ⊢
    have hunharmed := hm.unharmed rfl h.run
    cases hm
    exact ⟨hunharmed,⟨[],by simpa [Event.batchRead?] using hbatches,rfl⟩,h.sink⟩
  | @gives _ b bs hread hrest =>
    rw [hread] at hm ⊢
    have hunharmed := hm.unharmed rfl h.run
    cases hm
    exact ⟨hunharmed,⟨bs,by simpa [Event.batchRead?] using hbatches,hrest⟩,h.sink⟩

/-- A write gives the sink the next batch of those that it still takes. -/
theorem Delivers.writes {run : Run} {b : Batch} (h : s.Delivers batches last read written)
    (hr : s.run.Consistent) (ho : Run.Ordered read written s.run) (hb : s.run.pusher = .writing b)
    (hrun : s.run.step (.writeReturns (s.sink.write b).1) = some run) :
    ({ s with run, sink := (s.sink.write b).2 } : Scene Source FileSink).Delivers batches last
      read (written ++ (s.run.batchWritten? (.writeReturns (s.sink.write b).1)).toList) := by
  have hm := Run.Moves.of_step hrun
  have hopen : s.run.phase ≠ .closed := by
    intro hp
    have hended := (hr.both_ended (by simp [hp])).2
    simp [hb, Pusher.ended] at hended
  obtain ⟨left,hbatches,_⟩ := h.source
  obtain ⟨rest,hrest,htakes⟩ := h.sink
  rw [if_neg hopen] at htakes
  -- what is being written is the first batch after those that have been
  obtain ⟨more,rfl⟩ : ∃ more, rest = b :: more := by
    rw [hbatches, ho.kept (.inr h.run.undisturbed), hb] at hrest
    simp only [Pusher.batches, List.append_assoc, List.cons_append] at hrest
    exact ⟨_,(List.append_cancel_left hrest).symm⟩
  cases htakes with
  | takes hwrite htakes =>
    rw [hwrite] at hm ⊢
    have hunharmed := hm.unharmed rfl h.run
    cases hm
    refine ⟨hunharmed,h.source,more,?_,?_⟩
    · simpa [Run.batchWritten?, hb] using hrest
    · rw [if_neg hopen]
      exact htakes

/-- The sink is closed when it has taken all batches. -/
theorem Delivers.closesSink {run : Run} (h : s.Delivers batches last read written)
    (hr : s.run.Consistent) (ho : Run.Ordered read written s.run)
    (hrun : s.run.step (.sinkCloses (errorOf? s.sink.close.1)) = some run) :
    ({ s with run, sink := s.sink.close.2 } : Scene Source FileSink).Delivers batches last
      read written := by
  have hm := Run.Moves.of_step hrun
  have hphase : s.run.phase = .closingSink := by
    cases hm
    assumption
  have hworking : s.run.phase ≠ .working := by simp [hphase]
  have hsame := h.run.read_eq_written hr ho hworking
  obtain ⟨left,hbatches,hended⟩ := h.source
  rw [if_pos (hr.both_ended hworking).1] at hended
  obtain ⟨rest,hrest,htakes⟩ := h.sink
  rw [hphase, if_neg (by simp)] at htakes
  have hnil : rest = [] := by
    rw [hbatches, hsame, hended] at hrest
    exact (List.append_cancel_left hrest).symm
  subst hnil
  cases htakes with
  | closes hclose =>
    rw [hclose] at hm ⊢
    have hunharmed := hm.unharmed rfl h.run
    cases hm
    exact ⟨hunharmed,h.source,[],hrest,rfl⟩

theorem Delivers.closesSource {run : Run} (h : s.Delivers batches last read written)
    (hr : s.run.Consistent) (hrun : s.run.step (.sourceCloses none) = some run) :
    ({ s with run, source := s.source.close } : Scene Source FileSink).Delivers batches last
      read written := by
  have hm := Run.Moves.of_step hrun
  have hunharmed := hm.unharmed rfl h.run
  cases hm with
  | sourceCloses hphase =>
    have hended := (hr.both_ended (by simp [hphase])).1
    obtain ⟨left,hbatches,hleft⟩ := h.source
    obtain ⟨rest,hrest,htakes⟩ := h.sink
    rw [if_pos hended] at hleft
    rw [hphase, if_neg (by simp)] at htakes
    refine ⟨hunharmed,⟨left,hbatches,?_⟩,⟨rest,hrest,?_⟩⟩
    · rw [if_pos hended]
      exact hleft
    · rw [h.run.phaseAfterPuller, if_neg (by simp)]
      exact htakes

theorem Goes.delivers (hg : s.Goes e s') (he : e ≠ .callerCancels) (hr : s.run.Consistent)
    (ho : Run.Ordered read written s.run) (h : s.Delivers batches last read written) :
    s'.Delivers batches last (read ++ e.batchRead?.toList)
      (written ++ (s.run.batchWritten? e).toList) := by
  cases hg with
  | moves hu hrun => exact h.moves hr hu he hrun
  | reads hrun => simpa [Run.batchWritten?] using h.reads hrun
  | writes hb hrun => simpa [Event.batchRead?] using h.writes hr ho hb hrun
  | closesSource hrun => simpa [Event.batchRead?, Run.batchWritten?] using h.closesSource hr hrun
  | closesSink hrun => simpa [Event.batchRead?, Run.batchWritten?] using h.closesSink hr ho hrun

/-- So a transfer that the caller leaves alone delivers, all along. -/
theorem Along.delivers {capacity : Nat} (ha : s.Along es s') (hs : s.run = .start capacity false)
    (hn : .callerCancels ∉ es) (hy : s.source.Yields batches) (ht : s.sink.Takes batches last) :
    s'.Delivers batches last (batchesReadIn es)
      ((Run.start capacity false).batchesWrittenIn es) := by
  induction ha with
  | nil =>
    refine ⟨hs ▸ Run.unharmed_start capacity,⟨batches,rfl,?_⟩,⟨batches,rfl,?_⟩⟩
    · rw [hs]
      exact hy
    · rw [hs]
      exact ht
  | snoc ha hg ih =>
    rw [List.mem_append, not_or, List.mem_singleton] at hn
    have hsteps := ha.steps
    rw [hs] at hsteps
    have hbefore := ih hn.1
    have hafter := hg.delivers (Ne.symm hn.2) (Run.consistent_of_steps hsteps)
      (Run.ordered_of_steps hsteps) hbefore
    rwa [batchesReadIn_concat, Run.batchesWrittenIn_concat hsteps]

end Transfer.Scene
namespace Pipeline
variable {c : Config} {k : Course} {source : Source} {sink : FileSink}
variable {final : Scene Source FileSink} {batches : List Batch} {last : FileSink}

/-- What a course comes to whose source yields what its sink takes. -/
theorem outcome_of_delivery {startedAt finishedAt : Calendar.Instant}
    {result : Except Error Metrics} {rest : Engine Source FileSink} (hv : c.validate = .ok ())
    (hk : k.Quiet) (hy : source.Yields batches) (ht : sink.Takes batches last)
    (ha : (opening c k source sink).Along k.events final)
    (h : (engine c source sink).startAlong k.fired k.events startedAt finishedAt =
      some (result, rest)) :
    (∃ m, result = .ok m ∧ m.batchesRead = batches.length ∧ m.rowsRead = Transfer.rowsOf batches ∧
      m.batchesWritten = batches.length ∧ m.rowsWritten = Transfer.rowsOf batches) ∧
    final.sink = last ∧
    (Run.start c.transfer.queueCapacity false).batchesWrittenIn k.events = batches := by
  obtain ⟨hclosed,hresult⟩ := result_of_startAlong hv ha h
  have hsteps : (Run.start c.transfer.queueCapacity k.fired).steps k.events = some final.run :=
    ha.steps
  rw [hk.1] at hsteps
  have hopening : (opening c k source sink).run = .start c.transfer.queueCapacity false := by
    rw [← hk.1]
    rfl
  obtain ⟨hunharmed,hsource,hsink⟩ := ha.delivers hopening hk.2 hy ht
  have hconsistent := Run.consistent_of_steps hsteps
  -- the run is over, so what it has read it has written, and the source had no more
  have hsame := hunharmed.read_eq_written hconsistent (Run.ordered_of_steps hsteps)
    (by simp [hclosed])
  obtain ⟨left,hbatches,hleft⟩ := hsource
  rw [if_pos (hconsistent.both_ended (by simp [hclosed])).1] at hleft
  rw [hleft, List.append_nil] at hbatches
  obtain ⟨_,_,hfinal⟩ := hsink
  rw [if_pos hclosed] at hfinal
  obtain ⟨hread,hrowsRead⟩ := Run.metrics_of_no_readPanics hsteps
    ((Run.puller_ne_panicked_iff hsteps).mp hunharmed.puller) startedAt finishedAt
  obtain ⟨hwritten,hrowsWritten⟩ := Run.metrics_of_no_writePanics hsteps
    ((Run.pusher_ne_panicked_iff hsteps).mp hunharmed.pusher) startedAt finishedAt
  rw [← Run.length_batchesWrittenIn hsteps] at hwritten
  rw [← hbatches] at hread hrowsRead
  rw [← hsame, ← hbatches] at hwritten hrowsWritten
  refine ⟨⟨_,?_,hread,hrowsRead,hwritten,hrowsWritten⟩,hfinal,?_⟩
  · rw [hresult, hunharmed.result]
    rfl
  · rw [← hsame, ← hbatches]

end Pipeline
end Tabular
