import Tabular.Proofs.Delimited.Records
import Tabular.Proofs.Files.Tree
import Tabular.Proofs.Inference.Invariance
import Tabular.Proofs.Inference.ReadBack
import Tabular.Proofs.Pipeline.Bound
import Tabular.Proofs.Pipeline.Settings
import Tabular.Proofs.Transfer.Firing
import Tabular.Proofs.Transfer.Progress

/-! # The schedule of a pipeline is a course

The schedule by which a pipeline is run moves on until no worker can move, and then both have ended,
as no call of a source or sink over files is left open. So the run is one of the courses of the
pipeline, and it comes to its end.
-/
namespace Tabular
open Delimited (Reading)
open Transfer

/-! ## Sources over files -/

theorem takeSegment_quiet {rs : List Reading} (h : ∀ r ∈ rs, r.fired = false) (width n : Nat)
    (done : List (List String)) :
    (takeSegment width n done false rs).fired = false ∧
      ∀ r ∈ (takeSegment width n done false rs).rest, r.fired = false := by
  induction rs generalizing n done with
  | nil => cases n <;> simp [takeSegment]
  | cons r rs ih =>
    have hr := h r List.mem_cons_self
    have hrs : ∀ r ∈ rs, r.fired = false := fun x hx => h x (List.mem_cons_of_mem _ hx)
    cases n with
    | zero => exact ⟨rfl,h⟩
    | succ n =>
      cases hi : r.item with
      | finished => simp [takeSegment, hi, hr]
      | fault f => simpa [takeSegment, hi, hr] using hrs
      | panic text => simpa [takeSegment, hi, hr] using hrs
      | record record =>
        simp only [takeSegment, hi, hr, Bool.or_false]
        split
        · exact ih hrs n _
        · exact ⟨rfl,hrs⟩

/-- Records during whose reading the caller does not cancel. -/
def DelimitedSource.Quiet (d : DelimitedSource) : Prop :=
  ∀ rs, d.records = some rs → ∀ r ∈ rs, r.fired = false

theorem DelimitedSource.stretch_quiet (d : DelimitedSource) {rs : List Reading}
    (h : ∀ r ∈ rs, r.fired = false) :
    (d.stretch rs).fired = false ∧ ∀ r ∈ (d.stretch rs).rest, r.fired = false := by
  rcases d.stretch_cases rs with heq | ⟨_,heq⟩
  · rw [heq]
    exact takeSegment_quiet h d.schema.width d.batchSize []
  · rw [heq]
    exact ⟨rfl,h⟩

theorem DelimitedSource.Quiet.readWatching {d : DelimitedSource} (h : d.Quiet) :
    d.readWatching.2.2 = false ∧ d.readWatching.2.1.Quiet := by
  unfold DelimitedSource.readWatching
  cases hrs : d.records with
  | none => exact ⟨rfl,h⟩
  | some rs =>
    obtain ⟨hfired,hrest⟩ := d.stretch_quiet (h rs hrs)
    have hquiet : ∀ n, ({ d with
        records := some (d.stretch rs).rest
        rowsRead := n } : DelimitedSource).Quiet := by
      rintro _ _ ⟨⟩
      exact hrest
    dsimp only
    split
    · refine ⟨hfired,?_⟩
      rintro _ ⟨⟩
    · exact ⟨hfired,hquiet _⟩
    · exact ⟨hfired,hquiet _⟩
    · split
      · exact ⟨hfired,hquiet _⟩
      · exact ⟨hfired,hquiet _⟩

def Source.Quiet : Source → Prop
  | .delimited d => d.Quiet
  | _ => True

namespace Source
variable {s : Source}

theorem Quiet.close (s : Source) : s.close.Quiet := by
  cases s with
  | delimited d => exact fun rs hrs => nomatch hrs
  | memory m | feed f => trivial

theorem Quiet.read (h : s.Quiet) : s.read.2.Quiet := by
  cases s with
  | delimited d => exact (DelimitedSource.Quiet.readWatching h).2
  | memory m | feed f => trivial

/-- A look at a read shows that it has returned. -/
theorem Quiet.poll (h : s.Quiet) (c : Counters) :
    Pullable.poll c s = .ends false (.returns s.read.1) c s.read.2 := by
  cases s with
  | delimited d =>
    have hfired := (DelimitedSource.Quiet.readWatching h).1
    simp [Pullable.poll, Source.read, DelimitedSource.read, hfired]
  | memory m | feed f => rfl

theorem quiet_afterEmptying (bytes : List UInt8) (h : s.Quiet) : (s.afterEmptying bytes).Quiet := by
  cases s with
  | memory m | feed f => trivial
  | delimited d =>
    rintro _ ⟨⟩ r hr
    split at hr
    · exact Delimited.readings_quiet (by simp) (List.mem_of_mem_drop hr)
    · exact Delimited.readings_quiet (by simp) hr

theorem quiet_settled (t : FileTree) (p : Path) (l : Location) (h : s.Quiet) :
    (Pipeline.settled t p l s).Quiet := by
  unfold Pipeline.settled
  split
  · split
    · split
      · exact quiet_afterEmptying _ h
      · exact h
    · exact h
  · exact h

theorem mem_of_skipHeader {schema : Schema} {rs rs' : List Reading} {r : Reading}
    (h : DelimitedSource.skipHeader schema rs = .ok rs') (hr : r ∈ rs') : r ∈ rs := by
  unfold DelimitedSource.skipHeader at h
  split at h
  · cases h
    exact hr
  · split at h
    · cases h
      exact hr
    · cases h
    · cases h
    · split at h <;> cases h
      exact List.mem_cons_of_mem _ hr

/-- What a source over a file is made of. -/
theorem ofPath_eq_ok {t : FileTree} {schema : Schema} {o : Options} {p : Path} {d : DelimitedSource}
    (h : DelimitedSource.ofPath t schema o p = .ok d) :
    ∃ x delimiter rs, t.openEntry p = .ok x ∧
      d = ⟨schema,o,DelimitedSource.defaultBatchSize,some rs,0⟩ ∧
      ∀ r ∈ rs, r ∈ Delimited.readings delimiter x.chunks := by
  obtain ⟨x,hx,h⟩ := bind_eq_ok_iff.mp h
  obtain ⟨_,_,h⟩ := bind_eq_ok_iff.mp h
  obtain ⟨delimiter,_,h⟩ := bind_eq_ok_iff.mp h
  rw [DelimitedSource.ofRecords] at h
  split at h
  · obtain ⟨rs,hrs,h⟩ := bind_eq_ok_iff.mp h
    cases h
    exact ⟨x,delimiter,rs,hx,rfl,fun r hr => mem_of_skipHeader hrs hr⟩
  · cases h
    exact ⟨x,delimiter,_,hx,rfl,fun r hr => hr⟩

theorem not_mem_chunks (x : Entry) : .cancel ∉ x.chunks := by
  cases x <;> simp [Entry.chunks]

theorem quiet_ofPath {t : FileTree} {schema : Schema} {o : Options} {p : Path} {d : DelimitedSource}
    (h : DelimitedSource.ofPath t schema o p = .ok d) : d.Quiet := by
  obtain ⟨x,_,_,_,rfl,hmem⟩ := ofPath_eq_ok h
  rintro _ ⟨⟩ r hr
  exact Delimited.readings_quiet (not_mem_chunks x) (hmem r hr)

theorem quiet_ofEndpoint {t : FileTree} {e : Endpoint} {o : Options} {i : Inference.Surroundings}
    {cancelled : Bool} (h : ofEndpoint t e o i cancelled = .ok s) : s.Quiet := by
  rw [ofEndpoint, bind_eq_ok_iff] at h
  obtain ⟨format,_,h⟩ := h
  cases format with
  | csv =>
    obtain ⟨outcome,_,h⟩ := bind_eq_ok_iff.mp h
    obtain ⟨d,hd,h⟩ := bind_eq_ok_iff.mp h
    cases h
    exact quiet_ofPath hd
  | ndjson | parquet | ipc =>
    obtain ⟨feed,_,h⟩ := bind_eq_ok_iff.mp h
    cases h
    trivial

end Source

namespace Transfer

/-- Whether an event is one of the workers, and not of the caller or of the end of the run. -/
def Event.ofWorkers : Event → Bool
  | .callerCancels | .joins | .sourceCloses _ | .sinkCloses _ => false
  | _ => true

theorem Run.Moves.phase_eq {r r' : Run} {e : Event} (hm : Moves r e r') (he : e.ofWorkers = true) :
    r'.phase = r.phase := by
  cases hm <;> first | rfl | cases he

namespace Scene
variable {s s₁ s' : Scene Source FileSink} {e : Event} {es : List Event}

theorem Goes.quiet (h : s.Goes e s') (hs : s.source.Quiet) : s'.source.Quiet := by
  cases h with
  | moves | writes | closesSink => exact hs
  | reads => exact hs.read
  | closesSource => exact .close _

theorem not_cancels_of_workers (h : ∀ e ∈ es, e.ofWorkers = true) : .callerCancels ∉ es :=
  fun hmem => nomatch h _ hmem

def Works (s s' : Scene Source FileSink) : Prop :=
  ∃ es, s.Along es s' ∧ es ≠ [] ∧ ∀ e ∈ es, e.ofWorkers = true

theorem Works.single (h : s.Goes e s') (he : e.ofWorkers = true) : s.Works s' :=
  ⟨[e],.single h,by simp,by simpa using he⟩

theorem Works.trans (h : s.Works s₁) (h' : s₁.Works s') : s.Works s' := by
  obtain ⟨es,ha,hne,he⟩ := h
  obtain ⟨fs,ha',_,hf⟩ := h'
  refine ⟨es ++ fs,ha.trans ha',by simp [hne],?_⟩
  simp only [List.mem_append]
  rintro e (hmem | hmem)
  · exact he e hmem
  · exact hf e hmem

/-- A move of its own that a worker can make is made. -/
theorem works_happen {run : Run} (h : s.run.step e = some run) (hu : e.unanswered = true)
    (he : e.ofWorkers = true) : s.Works (s.happen e) := by
  rw [happen, h]
  exact .single (.moves hu h) he

theorem pollRead_eq (hs : s.source.Quiet) :
    s.pollRead = some
      (({ s with source := s.source.read.2 } : Scene Source FileSink).happen
        (.readReturns s.source.read.1)) := by
  rw [pollRead, hs.poll]
  rfl

theorem works_pollRead (hs : s.source.Quiet) (hp : s.run.puller = .reading) :
    ∃ s', s.pollRead = some s' ∧ s.Works s' := by
  refine ⟨_,pollRead_eq hs,?_⟩
  obtain ⟨run,hrun⟩ := Run.exists_readReturns hp s.source.read.1
  rw [happen, hrun]
  exact .single (.reads hrun) rfl

theorem works_pollWrite {b : Batch} (hp : s.run.pusher = .writing b) :
    ∃ s', s.pollWrite b = some s' ∧ s.Works s' := by
  refine ⟨({ s with sink := (s.sink.write b).2 } : Scene Source FileSink).happen
    (.writeReturns (s.sink.write b).1),rfl,?_⟩
  obtain ⟨run,hrun⟩ := Run.exists_writeReturns hp (s.sink.write b).1
  rw [happen, hrun]
  exact .single (.writes hp hrun) rfl

theorem works_movePuller (hs : s.source.Quiet) (h : s.movePuller = some s') : s.Works s' := by
  unfold movePuller at h
  split at h
  · next hm =>
    cases h
    exact works_happen (Run.step_eq_some_iff.mpr (.pullerStops hm)) rfl rfl
  · next hm =>
    split at h
    · next hp =>
      cases h
      have hf : s.run.fired = false := by simpa [Run.pullerMayStop, hp] using hm
      have hstarts := Run.step_eq_some_iff.mpr (.readStarts hp hf)
      have hworks : s.Works (s.happen .readStarts) := works_happen hstarts rfl rfl
      have hreading : (s.happen .readStarts).run.puller = .reading := by simp [happen, hstarts]
      obtain ⟨s₁,hpoll,hreads⟩ := works_pollRead (s := s.happen .readStarts) hs hreading
      have hbegin : s.beginRead = (s.happen .readStarts).pollRead.getD (s.happen .readStarts) := rfl
      rw [hbegin, hpoll]
      exact hworks.trans hreads
    · next hp =>
      obtain ⟨s₁,hpoll,hreads⟩ := works_pollRead hs hp
      rw [h] at hpoll
      cases hpoll
      exact hreads
    · obtain ⟨run,hrun,rfl⟩ := Option.map_eq_some_iff.mp h
      exact .single (.moves rfl hrun) rfl
    · cases h
    · cases h

theorem works_movePusher (h : s.movePusher = some s') : s.Works s' := by
  unfold movePusher at h
  split at h
  · next hm =>
    cases h
    exact works_happen (Run.step_eq_some_iff.mpr (.pusherStops hm)) rfl rfl
  · next hm =>
    split at h
    · obtain ⟨run,hrun,rfl⟩ := Option.map_eq_some_iff.mp h
      exact .single (.moves rfl hrun) rfl
    · next b hp =>
      cases h
      have hf : s.run.fired = false := by simpa [Run.pusherMayStop, hp] using hm
      have hstarts := Run.step_eq_some_iff.mpr (.writeStarts hp hf)
      have hworks : s.Works (s.happen .writeStarts) := works_happen hstarts rfl rfl
      have hwriting : (s.happen .writeStarts).run.pusher = .writing b := by simp [happen, hstarts]
      obtain ⟨s₁,hpoll,hwrites⟩ := works_pollWrite hwriting
      have hbegin : s.beginWrite b =
          ((s.happen .writeStarts).pollWrite b).getD (s.happen .writeStarts) := rfl
      rw [hbegin, hpoll]
      exact hworks.trans hwrites
    · next b hp =>
      obtain ⟨s₁,hpoll,hwrites⟩ := works_pollWrite hp
      rw [h] at hpoll
      cases hpoll
      exact hwrites
    · cases h
    · cases h

/-- No call wants to note anything. -/
theorem note_eq_none (hs : s.source.Quiet) : s.note = none := by
  have hpoll := hs.poll s.counters
  unfold note
  simp only [hpoll]
  cases s.run.puller <;> cases s.run.pusher <;> rfl

/-- A puller that does not move has ended, or it waits for room in the queue. -/
theorem puller_of_stuck (hs : s.source.Quiet) (h : s.movePuller = none) :
    s.run.pullerMayStop = false ∧ (s.run.puller.ended = true ∨
      (∃ b, s.run.puller = .holding b) ∧ s.run.step .sends = none) := by
  unfold movePuller at h
  split at h
  · cases h
  · next hm =>
    refine ⟨by simpa using hm,?_⟩
    cases hp : s.run.puller with
    | idle => simp [hp] at h
    | reading =>
      obtain ⟨_,hpoll,_⟩ := works_pollRead hs hp
      simp [hp, hpoll] at h
    | holding b => exact .inr ⟨⟨b,rfl⟩,by simpa [hp] using h⟩
    | stopped | panicked => exact .inl rfl

/-- A pusher that does not move has ended, or it waits for a batch. -/
theorem pusher_of_stuck (h : s.movePusher = none) :
    s.run.pusherMayStop = false ∧ (s.run.pusher.ended = true ∨
      s.run.pusher = .idle ∧ s.run.step .receives = none) := by
  unfold movePusher at h
  split at h
  · cases h
  · next hm =>
    refine ⟨by simpa using hm,?_⟩
    cases hp : s.run.pusher with
    | idle => exact .inr ⟨rfl,by simpa [hp] using h⟩
    | holding b => simp [hp] at h
    | writing b =>
      obtain ⟨_,hpoll,_⟩ := works_pollWrite hp
      simp [hp, hpoll] at h
    | stopped | panicked => exact .inl rfl

/-- Where no worker moves any more, both have ended. -/
theorem ended_of_stuck (hs : s.source.Quiet) (hc : 0 < s.run.capacity)
    (hl : s.movePuller = none) (hw : s.movePusher = none) :
    s.run.puller.ended = true ∧ s.run.pusher.ended = true := by
  obtain ⟨hlstop,hpuller⟩ := puller_of_stuck hs hl
  obtain ⟨hwstop,hpusher⟩ := pusher_of_stuck hw
  -- neither is inside a call, so a run that is blocked has no worker left
  have hcall : ¬ s.run.InCall := by
    rintro (hp | ⟨b,hp⟩)
    · rcases hpuller with he | ⟨⟨_,he⟩,_⟩ <;> simp [hp, Puller.ended] at he
    · rcases hpusher with he | ⟨he,_⟩ <;> simp [hp, Pusher.ended] at he
  have hblocked : s.run.Blocked := by
    intro e he
    rw [Option.eq_none_iff_forall_ne_some]
    intro run hrun
    have hm := Run.Moves.of_step hrun
    cases hm with
    | readStarts hp => rcases hpuller with he | ⟨⟨_,he⟩,_⟩ <;> simp [hp, Puller.ended] at he
    | sends hp =>
      rcases hpuller with he | ⟨_,he⟩
      · simp [hp, Puller.ended] at he
      · simp [he] at hrun
    | pullerStops hm => simp [hlstop] at hm
    | receives hp =>
      rcases hpusher with he | ⟨_,he⟩
      · simp [hp, Pusher.ended] at he
      · simp [he] at hrun
    | writeStarts hp => rcases hpusher with he | ⟨he,_⟩ <;> simp [hp, Pusher.ended] at he
    | pusherStops hm => simp [hwstop] at hm
    | _ => cases he
  by_contra hn
  refine hcall (hblocked.inCall hc ?_)
  simpa [Classical.or_iff_not_imp_left] using hn

/-- What the workers do leaves less to be done, and the rest of the transfer as it is. -/
theorem Works.keeps (h : s.Works s') :
    s'.toDo < s.toDo ∧ (s.source.Quiet → s'.source.Quiet) ∧ s'.run.capacity = s.run.capacity ∧
      s'.run.phase = s.run.phase := by
  obtain ⟨es,ha,hne,hworkers⟩ := h
  have hcancels := not_cancels_of_workers hworkers
  have hpos : 0 < es.length := List.length_pos_iff.mpr hne
  have hle := ha.length_le hcancels
  refine ⟨by omega,fun hs => ha.keeps hs fun hs hg => hg.quiet hs,
    Run.capacity_of_steps ha.steps,?_⟩
  clear hne hcancels hpos hle
  induction ha with
  | nil => rfl
  | snoc ha hg ih =>
    have hlast := (Run.Moves.of_step hg.step).phase_eq (hworkers _ (by simp))
    exact hlast.trans (ih fun e he => hworkers e (List.mem_append_left _ he))

theorem works_or_ended (hs : s.source.Quiet) (hc : 0 < s.run.capacity) :
    (∃ s', (s.movePuller.or s.movePusher).or s.note = some s' ∧ s.Works s') ∨
    (s.movePuller.or s.movePusher).or s.note = none ∧ s.run.puller.ended = true ∧
      s.run.pusher.ended = true := by
  rw [note_eq_none hs, Option.or_none]
  cases hl : s.movePuller with
  | some s' => exact .inl ⟨s',rfl,works_movePuller hs hl⟩
  | none =>
    rw [Option.none_or]
    cases hw : s.movePusher with
    | some s' => exact .inl ⟨s',rfl,works_movePusher hw⟩
    | none => exact .inr ⟨rfl,ended_of_stuck hs hc hl hw⟩

/-- The schedule goes on until both workers have ended. -/
theorem along_work (fuel : Nat) (hs : s.source.Quiet) (hc : 0 < s.run.capacity)
    (hw : s.run.phase = .working) (hfuel : s.toDo ≤ fuel) :
    ∃ es, s.Along es (s.work fuel) ∧ .callerCancels ∉ es ∧
      (s.work fuel).run.phase = .working ∧ (s.work fuel).run.puller.ended = true ∧
      (s.work fuel).run.pusher.ended = true := by
  induction fuel generalizing s with
  | zero =>
    rcases works_or_ended hs hc with ⟨s',_,hworks⟩ | ⟨_,hl,hp⟩
    · have hlt := hworks.keeps.1
      omega
    · exact ⟨[],.nil,List.not_mem_nil,hw,hl,hp⟩
  | succ fuel ih =>
    rcases works_or_ended hs hc with ⟨s',hm,hworks⟩ | ⟨hm,hl,hp⟩
    · obtain ⟨hlt,hquiet,hcapacity,hphase⟩ := hworks.keeps
      obtain ⟨es,ha,_,hworkers⟩ := hworks
      obtain ⟨fs,ha',hnot,hend⟩ := ih (hquiet hs) (hcapacity ▸ hc) (hphase.trans hw) (by omega)
      rw [work, hm]
      refine ⟨es ++ fs,ha.trans ha',?_,hend⟩
      rw [List.mem_append, not_or]
      exact ⟨not_cancels_of_workers hworkers,hnot⟩
    · rw [work, hm]
      exact ⟨[],.nil,List.not_mem_nil,hw,hl,hp⟩

/-- A source that is due to be closed is closed. -/
theorem along_closeSource (s : Scene Source FileSink) :
    ∃ es, s.Along es (if s.run.phase = .closingSource then
      ({ s with source := s.source.close } : Scene Source FileSink).happen (.sourceCloses none)
      else s) ∧ .callerCancels ∉ es := by
  split
  · next hp =>
    have hstep : s.run.step (.sourceCloses none) = some _ :=
      Run.step_eq_some_iff.mpr (.sourceCloses hp)
    rw [happen, hstep]
    exact ⟨_,.single (.closesSource hstep),by simp⟩
  · exact ⟨[],.nil,List.not_mem_nil⟩

/-- A sink that is due to be closed is closed. -/
theorem along_closeSink (s : Scene Source FileSink) :
    ∃ es, s.Along es (if s.run.phase = .closingSink then
      ({ s with sink := (Pushable.close s.sink).2 } : Scene Source FileSink).happen
        (.sinkCloses (Pushable.close s.sink).1)
      else s) ∧ .callerCancels ∉ es := by
  have hclose : Pushable.close s.sink = (errorOf? s.sink.close.1, s.sink.close.2) := by
    simp only [Pushable.close]
    split <;> simp_all [errorOf?]
  rw [hclose]
  split
  · next hp =>
    have hstep : s.run.step (.sinkCloses (errorOf? s.sink.close.1)) = some _ :=
      Run.step_eq_some_iff.mpr (.sinkCloses hp)
    rw [happen, hstep]
    exact ⟨_,.single (.closesSink hstep),by simp⟩
  · exact ⟨[],.nil,List.not_mem_nil⟩

theorem along_windUp (hw : s.run.phase = .working) (hl : s.run.puller.ended = true)
    (hp : s.run.pusher.ended = true) :
    ∃ es, s.Along es s.windUp ∧ .callerCancels ∉ es := by
  have hjoins := Run.step_eq_some_iff.mpr (.joins hw hl hp)
  have hjoined : s.Goes .joins (s.happen .joins) := by
    rw [happen, hjoins]
    exact .moves rfl hjoins
  obtain ⟨fs,hsource,hf⟩ := along_closeSource (s.happen .joins)
  obtain ⟨gs,hsink,hg⟩ := along_closeSink _
  exact ⟨_,((Along.single hjoined).trans hsource).trans hsink,by simp [hf, hg]⟩

/-- A transfer whose source is left alone is played to its end, and its ends answer for
themselves. -/
theorem along_play {capacity : Nat} {source : Source} (hs : source.Quiet) (hc : 0 < capacity)
    (cancelled : Bool) (sink : FileSink) :
    ∃ es, ({ run := .start capacity cancelled, source, sink } : Scene Source FileSink).Along es
        (play capacity cancelled source sink) ∧
      .callerCancels ∉ es ∧ (play capacity cancelled source sink).run.phase = .closed := by
  have hfuel : ({ run := .start capacity cancelled, source, sink } : Scene Source FileSink).toDo ≤
      20 * (Pullable.size source + 4) := by
    have htodo : ({ run := .start capacity cancelled, source, sink } : Scene Source FileSink).toDo =
      6 * Pullable.size source + 6 := rfl
    omega
  obtain ⟨es,ha,hnot,hw,hl,hp⟩ := along_work _ hs hc rfl hfuel
  obtain ⟨fs,ha',hnot'⟩ := along_windUp hw hl hp
  exact ⟨es ++ fs,ha.trans ha',by simp [hnot, hnot'],phase_windUp hw hl hp⟩

end Scene
end Transfer

namespace Pipeline
variable {t : FileTree} {c : Config} {e : Endpoint} {o : Options} {i : Inference.Surroundings}

/-- What the caller cancels does not change what the text is. -/
theorem item_head?_interrupted (n : Option Nat) (rs : List Reading) :
    (interrupted n rs).head?.map Reading.item = rs.head?.map Reading.item := by
  cases n with
  | none => rfl
  | some n =>
    cases rs with
    | nil => simp [interrupted]
    | cons r rs => cases n <;> rfl

/-- A text whose schema was inferred is opened as a source. -/
theorem exists_ofPath {p : Path} {x : Entry}
    {delimiter : UInt8} {n : Option Nat} {inferred : Inference.Outcome}
    (hv : o.validate = .ok ()) (hd : o.delimiterByte = .ok delimiter)
    (hx : t.openEntry p = .ok x)
    (h : Inference.inferRecords o i
      (interrupted n (Delimited.readings delimiter x.chunks)) = .ok inferred) :
    ∃ d, DelimitedSource.ofPath t inferred.schema o p = .ok d ∧ d.schema = inferred.schema ∧
      d.options = o ∧ d.batchSize = 8192 ∧
      d.records = some (Inference.behindHeader o (Delimited.readings delimiter x.chunks)) := by
  obtain ⟨names,rows,_,hfields,_,_,_,hfirst⟩ := Inference.inferRecords_ok h
  have hwidth : inferred.schema.width = names.length := by
    rw [Schema.width, hfields, Inference.length_fieldsOf]
  have hhead := item_head?_interrupted n (Delimited.readings delimiter x.chunks)
  have hopens : ∀ first ∈ (Delimited.readings delimiter x.chunks).head?,
      first.item = .finished ∨ ∃ record, first.item = .record record ∧
        record.fields.length = inferred.schema.width := by
    intro first hmem
    rw [Option.mem_def.mp hmem] at hhead
    obtain ⟨first',hmem',hitem⟩ := Option.map_eq_some_iff.mp hhead
    rw [hwidth, ← hitem]
    exact hfirst first' hmem'
  obtain ⟨d,hd',hschema,hoptions,hrecords,_⟩ := Inference.ofRecords_ok (o := o) hopens
  have hpath : DelimitedSource.ofPath t inferred.schema o p = .ok d := by
    simp only [DelimitedSource.ofPath, DelimitedSource.ofInput, hx, hv, hd, bind, Except.bind]
    exact hd'
  obtain ⟨_,_,_,_,rfl,_⟩ := Source.ofPath_eq_ok hpath
  exact ⟨_,hpath,hschema,hoptions,rfl,hrecords⟩

/-- If the caller does not cancel while records are sampled, opening comes to one result. -/
theorem openAlong_eq {k : Course} {r : Except Error Source} (hk : k.whileSampling = none)
    (h : openAlong t e o i k = some r) : r = Source.ofEndpoint t e o i k.cancelled := by
  unfold openAlong at h
  unfold Source.ofEndpoint
  cases hf : e.resolve with
  | error err =>
    simp only [hf] at h
    cases h
    rfl
  | ok format =>
    cases format with
    | csv =>
      simp only [hf] at h
      simp only [bind, Except.bind, Inference.inferPath]
      cases hx : t.openEntry e.path with
      | error err =>
        simp only [hx] at h
        cases h
        rfl
      | ok entry =>
        simp only [hx] at h
        cases hc : Inference.check (o.forPath e.path) k.cancelled with
        | error err =>
          simp only [hc] at h
          cases h
          simp [Inference.infer, hc, bind, Except.bind]
        | ok delimiter =>
          simp only [hc, hk, interrupted] at h
          obtain ⟨x,hx',rfl⟩ := Option.map_eq_some_iff.mp h
          have hinfer : Inference.inferAlong (o.forPath e.path) i k.cancelled k.moves
              entry.chunks = some x := by
            simp only [Inference.inferAlong, hc, hx']
          rw [Inference.infer_of_inferAlong hinfer]
          rfl
    | ndjson | parquet | ipc =>
      simp only [hf] at h
      cases h
      simp [Source.ofEndpoint, hf]

/-- An opening whose inference has begun comes to a result. -/
theorem exists_openAlong {k : Course}
    (h : ∀ x delimiter, t.openEntry e.path = .ok x →
      (o.forPath e.path).delimiterByte = .ok delimiter →
      Inference.CanMove (o.forPath e.path) i
        (interrupted k.whileSampling (Delimited.readings delimiter x.chunks)) k.moves) :
    ∃ more r, openAlong t e o i { k with moves := k.moves ++ more } = some r := by
  unfold openAlong
  split
  · exact ⟨[],_,rfl⟩
  · dsimp only
    split
    · exact ⟨[],_,rfl⟩
    · next x hx =>
      split
      · exact ⟨[],_,rfl⟩
      · next delimiter hc =>
        have hbegun := h x delimiter hx (Inference.check_ok hc).2
        obtain ⟨more,y,hy⟩ := Inference.exists_inferRecordsAlong hbegun
        refine ⟨more,?_⟩
        rw [hy]
        exact ⟨_,rfl⟩
  · exact ⟨[],_,rfl⟩

theorem check_engine (hc : c.validate = .ok ()) (source : Source) (sink : FileSink) :
    (engine c source sink).check = .ok (source, sink) := by
  rw [engine, Engine.check_asNew, (Config.validate_eq_ok_iff.mp hc).transfer]
  rfl

/-- A transfer that has come to its end is one that the engine of the pipeline has made. -/
theorem startAlong_of_closed {source : Source} {sink : FileSink} {fired : Bool}
    {events : List Event} {last : Scene Source FileSink} (hv : c.validate = .ok ())
    (ha : ({ run := .start c.transfer.queueCapacity fired, source, sink } :
      Scene Source FileSink).Along events last) (hclosed : last.run.phase = .closed)
    (startedAt finishedAt : Calendar.Instant) :
    (engine c source sink).startAlong fired events startedAt finishedAt =
      some ((engine c source sink).conclude last.run startedAt finishedAt) := by
  have hsteps : (Run.start (engine c source sink).settings.queueCapacity fired).steps events =
      some last.run := ha.steps
  simp only [Engine.startAlong, check_engine hv, hsteps, hclosed, if_true]

/-- What a transfer comes to whose ends answer for themselves is the result of its run. -/
theorem result_of_startAlong {k : Course} {source : Source} {sink : FileSink}
    {last : Scene Source FileSink} {startedAt finishedAt : Calendar.Instant}
    {result : Except Error Metrics} {rest : Engine Source FileSink} (hv : c.validate = .ok ())
    (ha : (opening c k source sink).Along k.events last)
    (h : (engine c source sink).startAlong k.fired k.events startedAt finishedAt =
      some (result, rest)) :
    last.run.phase = .closed ∧
    result = last.run.result.map fun _ => last.run.metrics startedAt finishedAt := by
  obtain ⟨r,hr,hclosed,hresult,hmetrics,_⟩ :=
    Engine.startAlong_eq_some (check_engine hv source sink) h
  have hlast : (Run.start (engine c source sink).settings.queueCapacity k.fired).steps k.events =
      some last.run := ha.steps
  obtain rfl : last.run = r := Option.some.inj (hlast.symm.trans hr)
  rw [hmetrics] at hresult
  exact ⟨hclosed,hresult⟩

/-- The transfer that is played is one along some events, and it comes to its end. -/
theorem exists_along_transfer {source : Source} (hv : c.validate = .ok ()) (hs : source.Quiet)
    (s : Surroundings) (cancelled : Bool) (sink : FileSink) (after : FileTree) :
    ∃ events last result rest, .callerCancels ∉ events ∧
      ({ run := .start c.transfer.queueCapacity cancelled, source, sink } :
        Scene Source FileSink).Along events last ∧
      (engine c source sink).startAlong cancelled events s.startedAt s.finishedAt =
        some (result, rest) ∧
      transfer c s cancelled source sink after = ⟨result,last.sink.save after⟩ := by
  have hcheck := check_engine hv source sink
  obtain ⟨events,ha,hnot,hclosed⟩ :=
    Scene.along_play hs (Engine.capacity_pos_of_check hcheck) cancelled sink
  have hplay : ((Engine.ofEndpoints source sink).withSettings c.transfer).start cancelled
      s.startedAt s.finishedAt =
      let (result, rest) := (engine c source sink).conclude
        (Scene.play c.transfer.queueCapacity cancelled source sink).run s.startedAt s.finishedAt
      ⟨result,rest,some (Scene.play c.transfer.queueCapacity cancelled source sink)⟩ := by
    rw [engine] at hcheck
    simp only [Engine.start, hcheck]
    rfl
  refine ⟨events,_,_,_,hnot,ha,startAlong_of_closed hv ha hclosed _ _,?_⟩
  simp only [transfer, hplay]
  rfl

/-- The run of a pipeline is one of its courses. -/
theorem exists_course_run (t : FileTree) (c : Config) (s : Surroundings) (cancelled : Bool) :
    ∃ k, k.fired = cancelled ∧ .callerCancels ∉ k.events ∧
      RunsTo t c s k (run t c s cancelled) := by
  unfold run
  cases hv : c.validate with
  | error err => exact ⟨{ cancelled },by simp [Course.fired],List.not_mem_nil,.refused hv⟩
  | ok _ =>
    obtain ⟨moves,r,ho⟩ := exists_openAlong (t := t) (e := c.source) (o := c.inference)
      (i := s.inference) (k := { cancelled }) fun _ _ _ _ => Inference.canMove_nil _ _ _
    obtain rfl := openAlong_eq rfl ho
    dsimp only at ho ⊢
    cases hs : Source.ofEndpoint t c.source c.inference s.inference cancelled with
    | error err =>
      rw [hs] at ho
      exact ⟨{ cancelled, moves },by simp [Course.fired],List.not_mem_nil,.unopened hv ho⟩
    | ok source =>
      rw [hs] at ho
      dsimp only
      split
      · next hk =>
        exact ⟨{ cancelled, moves },by simp [Course.fired],List.not_mem_nil,.uncreated hv ho hk⟩
      · next sink after hk =>
        have hquiet : (settled t c.source.path sink.location source).Quiet :=
          Source.quiet_settled _ _ _ (Source.quiet_ofEndpoint hs)
        obtain ⟨events,last,result,rest,hnot,ha,hstart,htransfer⟩ :=
          exists_along_transfer hv hquiet s cancelled sink after
        have hfired : ({ cancelled, moves, events } : Course).fired = cancelled := by
          simp [Course.fired]
        rw [htransfer]
        refine ⟨{ cancelled, moves, events },hfired,hnot,?_⟩
        rw [← hfired] at ha hstart
        exact .transferred hv ho hk ha hstart

end Pipeline
end Tabular
