import Tabular.Proofs.Machine.Size
import Tabular.Proofs.Pipeline.Course
import Tabular.Proofs.Transfer.Progress
import Mathlib

/-! # A transfer ends by itself

Whatever its ends answer, each move of a transfer leaves less to be done, unless the caller cancels:
a batch that is read makes the source smaller, and from then on it has a few moves to go. So a
transfer makes a bounded number of moves, by the size of its source when it begins.
-/
namespace Tabular
open Delimited (Reading)

/-- Each row that a segment takes is a reading less. -/
theorem length_takeSegment (width n : Nat) (done : List (List String)) (fired : Bool)
    (rs : List Reading) :
    (takeSegment width n done fired rs).rest.length ≤ rs.length ∧
    ∀ rows, (takeSegment width n done fired rs).segment = .rows rows →
      (takeSegment width n done fired rs).rest.length + rows.length ≤ rs.length + done.length := by
  induction rs generalizing n done fired with
  | nil => cases n <;> simp +contextual [takeSegment, eq_comm]
  | cons r rs ih =>
    cases n with
    | zero => simp +contextual [takeSegment, eq_comm]
    | succ n =>
      cases hi : r.item with
      | finished =>
        simp only [takeSegment, hi, List.length_cons, List.length_nil, Segment.rows.injEq]
        refine ⟨by omega,?_⟩
        rintro rows rfl
        rw [List.length_reverse]
        omega
      | fault f => simp [takeSegment, hi]
      | panic text => simp [takeSegment, hi]
      | record record =>
        simp only [takeSegment, hi]
        split
        · obtain ⟨hle,hrows⟩ := ih n (record.fields :: done) (fired || r.fired)
          refine ⟨Nat.le_succ_of_le hle,fun rows h => ?_⟩
          have hsum := hrows rows h
          simp only [List.length_cons] at hsum ⊢
          omega
        · simp

theorem DelimitedSource.length_stretch (d : DelimitedSource) (rs : List Reading) :
    (d.stretch rs).rest.length ≤ rs.length ∧
    ∀ rows, (d.stretch rs).segment = .rows rows →
      (d.stretch rs).rest.length + rows.length ≤ rs.length := by
  rcases d.stretch_cases rs with heq | ⟨_,heq⟩
  · rw [heq]
    exact length_takeSegment d.schema.width d.batchSize [] false rs
  · rw [heq]
    exact ⟨Nat.le_refl _,fun rows h => nomatch h⟩

namespace Source
open Transfer (Pullable)

/-- Reading a source leaves no more of it, and less if there was a batch. -/
theorem size_read (s : Source) :
    Pullable.size s.read.2 + (s.read.1.toOption.join.toList).length ≤ Pullable.size s := by
  cases s with
  | memory m =>
    simp only [Source.read, MemorySource.read, Pullable.size]
    split
    · simp [Except.toOption]
    · split <;> simp_all [Except.toOption]
  | delimited d =>
    simp only [Source.read, DelimitedSource.read, DelimitedSource.readWatching]
    cases hrs : d.records with
    | none => simp [Except.toOption]
    | some rs =>
      obtain ⟨hle,hrows⟩ := d.length_stretch rs
      dsimp only
      split
      · simp [Except.toOption, Pullable.size]
      · simpa [Except.toOption, Pullable.size, hrs] using hle
      · simpa [Except.toOption, Pullable.size, hrs] using hle
      · next rows hne hseg =>
        have hsum := hrows rows hseg
        have hpos : 0 < rows.length := List.length_pos_iff.mpr hne
        split <;> simp only [Except.toOption, Pullable.size, Option.join, Option.map_some,
          Option.getD_some, hrs] <;> grind
  | feed f =>
    simp only [Source.read, Feed.read]
    split
    · simp [Except.toOption]
    · split <;> simp [Except.toOption]
    all_goals simp_all [Except.toOption, Pullable.size]

theorem size_close (s : Source) : Pullable.size s.close ≤ Pullable.size s := by
  cases s <;> simp [Source.close, MemorySource.close, DelimitedSource.close, Feed.close,
    Pullable.size]

end Source

namespace Transfer

/-- How many moves a puller has before it at most, with those to which its batch leads. -/
def Puller.toDo : Puller → Nat
  | .idle => 2
  | .reading => 1
  | .holding _ => 6
  | .stopped | .panicked _ => 0

def Pusher.toDo : Pusher → Nat
  | .idle => 1
  | .holding _ => 3
  | .writing _ => 2
  | .stopped | .panicked _ => 0

def Phase.toDo : Phase → Nat
  | .working => 3
  | .closingSource => 2
  | .closingSink => 1
  | .closed => 0

namespace Run
variable {r r' : Run} {e : Event}

/-- How many moves a run has before it at most if no further batch is read. -/
def toDo (r : Run) : Nat :=
  r.puller.toDo + 3 * r.queue.length + r.pusher.toDo + r.phase.toDo

theorem toDo_phaseAfterPuller_le (r : Run) : r.phaseAfterPuller.toDo ≤ 1 := by
  unfold phaseAfterPuller
  split <;> simp [Phase.toDo]

theorem toDo_phaseAfterJoin_le (r : Run) : r.phaseAfterJoin.toDo ≤ 2 := by
  unfold phaseAfterJoin
  split
  · exact Nat.le_succ_of_le r.toDo_phaseAfterPuller_le
  · exact Nat.le_refl 2

theorem toDo_puller_pos (h : r.puller.ended = false) : 0 < r.puller.toDo := by
  cases hp : r.puller <;> simp_all [Puller.ended, Puller.toDo]

theorem toDo_pusher_pos (h : r.pusher.ended = false) : 0 < r.pusher.toDo := by
  cases hp : r.pusher <;> simp_all [Pusher.ended, Pusher.toDo]

/-- Each move is one of those to be done; a batch that is read brings six more. -/
theorem Moves.toDo (hm : Moves r e r') (hc : e ≠ .callerCancels) :
    r'.toDo + 1 ≤ r.toDo + 6 * e.batchRead?.toList.length := by
  cases hm with
  | callerCancels => exact absurd rfl hc
  | pullerStops hm =>
    have hpos := toDo_puller_pos (pullerMayStop_iff.mp hm).1
    have hstop : Puller.stopped.toDo = 0 := rfl
    simp only [Run.toDo]
    omega
  | pusherStops hm =>
    have hpos := toDo_pusher_pos (pusherMayStop_iff.mp hm).1
    have hstop : Pusher.stopped.toDo = 0 := rfl
    simp only [Run.toDo, endPusher, List.length_nil]
    omega
  | joins hw =>
    have hphase : r.phase.toDo = 3 := by rw [hw]; rfl
    have hle := r.toDo_phaseAfterJoin_le
    simp only [Run.toDo]
    omega
  | sourceCloses hp =>
    have hphase : r.phase.toDo = 2 := by rw [hp]; rfl
    have hle := r.toDo_phaseAfterPuller_le
    simp only [Run.toDo]
    omega
  | sinkCloses hp =>
    have hphase : r.phase.toDo = 1 := by rw [hp]; rfl
    have hclosed : Phase.closed.toDo = 0 := rfl
    simp only [Run.toDo]
    omega
  | readGives hp =>
    simp only [Run.toDo, hp, Puller.toDo, Event.batchRead?, Option.toList_some,
      List.length_singleton]
    omega
  | readEnds hp | readFails hp | readPanics hp | readStarts hp =>
    simp only [Run.toDo, fail, hp, Puller.toDo]
    omega
  | sends hp =>
    simp only [Run.toDo, hp, Puller.toDo, List.length_append, List.length_singleton]
    omega
  | receives hp hq =>
    simp only [Run.toDo, hp, hq, Pusher.toDo, List.length_cons]
    omega
  | writeStarts hp | writeSucceeds hp =>
    simp only [Run.toDo, hp, Pusher.toDo]
    omega
  | writeFails hp | writePanics hp =>
    simp only [Run.toDo, fail, endPusher, hp, Pusher.toDo, List.length_nil]
    omega

/-- A read that is under way can return whatever it comes to. -/
theorem exists_readReturns (hp : r.puller = .reading) (x : Except Error (Option Batch)) :
    ∃ r', r.step (.readReturns x) = some r' := by
  cases x with
  | error err => exact ⟨_,step_eq_some_iff.mpr (.readFails hp)⟩
  | ok b? =>
    cases b? with
    | none => exact ⟨_,step_eq_some_iff.mpr (.readEnds hp)⟩
    | some b => exact ⟨_,step_eq_some_iff.mpr (.readGives hp)⟩

/-- A write that is under way can return whatever it comes to. -/
theorem exists_writeReturns {b : Batch} (hp : r.pusher = .writing b) (x : Except Error Unit) :
    ∃ r', r.step (.writeReturns x) = some r' := by
  cases x with
  | error err => exact ⟨_,step_eq_some_iff.mpr (.writeFails hp)⟩
  | ok _ => exact ⟨_,step_eq_some_iff.mpr (.writeSucceeds hp)⟩

end Run

namespace Scene
variable {s s' : Scene Source FileSink} {e : Event} {es : List Event}

def toDo (s : Scene Source FileSink) : Nat := 6 * Pullable.size s.source + s.run.toDo

theorem Goes.toDo (h : s.Goes e s') (hc : e ≠ .callerCancels) : s'.toDo + 1 ≤ s.toDo := by
  have hrun := (Run.Moves.of_step h.step).toDo hc
  cases h with
  | moves he hr =>
    have hb : e.batchRead? = none := by cases e <;> simp_all [Event.unanswered, Event.batchRead?]
    simp only [hb, Option.toList_none, List.length_nil] at hrun
    simp only [Scene.toDo]
    omega
  | reads hr =>
    have hsize := s.source.size_read
    have hb : (Event.readReturns s.source.read.1).batchRead? = s.source.read.1.toOption.join := by
      cases hread : s.source.read.1 with
      | error err => rfl
      | ok b? => cases b? <;> rfl
    simp only [hb] at hrun
    simp only [Scene.toDo]
    omega
  | writes hb hr | closesSink hr =>
    simp only [Event.batchRead?, Option.toList_none, List.length_nil] at hrun
    simp only [Scene.toDo]
    omega
  | closesSource hr =>
    have hsize := s.source.size_close
    simp only [Event.batchRead?, Option.toList_none, List.length_nil] at hrun
    simp only [Scene.toDo]
    omega

/-- The moves of a transfer are never more than it has before it. -/
theorem Along.length_le (h : s.Along es s') (hc : .callerCancels ∉ es) :
    es.length + s'.toDo ≤ s.toDo := by
  induction h with
  | nil => simp
  | snoc h hg ih =>
    rw [List.mem_append, not_or, List.mem_singleton] at hc
    have hrest := ih hc.1
    have hlast := hg.toDo (Ne.symm hc.2)
    rw [List.length_append, List.length_singleton]
    omega

/-- A transfer that has not come to its end goes on without the caller. -/
theorem exists_goes (hc : 0 < s.run.capacity) (hp : s.run.phase ≠ .closed) :
    ∃ e s', s.Goes e s' ∧ e ≠ .callerCancels := by
  cases hphase : s.run.phase with
  | closed => exact absurd hphase hp
  | closingSource =>
    exact ⟨_,_,.closesSource (Run.step_eq_some_iff.mpr (.sourceCloses hphase)),by simp⟩
  | closingSink =>
    exact ⟨_,_,.closesSink (Run.step_eq_some_iff.mpr (.sinkCloses hphase)),by simp⟩
  | working =>
    by_cases hb : s.run.Blocked
    · by_cases hended : s.run.puller.ended = true ∧ s.run.pusher.ended = true
      · exact ⟨_,_,.moves rfl (Run.step_eq_some_iff.mpr (.joins hphase hended.1 hended.2)),by simp⟩
      · have hworker : s.run.puller.ended = false ∨ s.run.pusher.ended = false := by
          simpa [Classical.or_iff_not_imp_left] using hended
        rcases hb.inCall hc hworker with hreading | ⟨b,hwriting⟩
        · obtain ⟨run,hrun⟩ := Run.exists_readReturns hreading s.source.read.1
          exact ⟨_,_,.reads hrun,by simp⟩
        · obtain ⟨run,hrun⟩ := Run.exists_writeReturns hwriting (s.sink.write b).1
          exact ⟨_,_,.writes hwriting hrun,by simp⟩
    · simp only [Run.Blocked, not_forall] at hb
      obtain ⟨e,he,hs⟩ := hb
      obtain ⟨run,hrun⟩ := Option.ne_none_iff_exists'.mp hs
      refine ⟨e,_,.moves ?_ hrun,?_⟩
      · cases e <;> first | rfl | cases he
      · rintro rfl
        cases he

/-- However far a transfer has come, it comes to its end if the caller lets it. -/
theorem exists_closed (hc : 0 < s.run.capacity) :
    ∃ es s', s.Along es s' ∧ .callerCancels ∉ es ∧ s'.run.phase = .closed := by
  induction hn : s.toDo using Nat.strongRecOn generalizing s with
  | ind n ih =>
    by_cases hp : s.run.phase = .closed
    · exact ⟨[],s,.nil,List.not_mem_nil,hp⟩
    · obtain ⟨e,s₁,hg,he⟩ := exists_goes hc hp
      have hless := hg.toDo he
      have hcapacity := (Run.Moves.of_step hg.step).capacity_eq
      obtain ⟨es,s',ha,hnot,hclosed⟩ := ih s₁.toDo (by omega) (hcapacity ▸ hc) rfl
      refine ⟨[e] ++ es,s',(Along.single hg).trans ha,?_,hclosed⟩
      rw [List.mem_append, not_or, List.mem_singleton]
      exact ⟨Ne.symm he,hnot⟩

end Scene

end Transfer

theorem Pipeline.toDo_opening (c : Config) (k : Course) (source : Source) (sink : FileSink) :
    (opening c k source sink).toDo = 6 * Transfer.Pullable.size source + 6 := rfl

end Tabular
