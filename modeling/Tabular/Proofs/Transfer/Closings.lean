import Tabular.Proofs.Transfer.Counts
import Tabular.Proofs.Transfer.Life

/-! # Endpoints are closed once

An endpoint is closed when both workers have ended and have been joined, the source before the sink,
and whatever closing the source comes to. Only an endpoint whose worker has panicked is not there
any more. No call follows, and as an engine runs at most once, no other start closes again.
-/
namespace Tabular.Transfer

def Event.closed? : Event → Option Stage
  | sourceCloses _ => some .pull
  | sinkCloses _ => some .push
  | _ => none

def closesIn (es : List Event) : List Stage := es.filterMap Event.closed?

def Puller.toClose : Puller → List Stage
  | .panicked _ => []
  | _ => [.pull]

def Pusher.toClose : Pusher → List Stage
  | .panicked _ => []
  | _ => [.push]

/-- The source's close and its answer, if the source is left to close. -/
def Puller.closing (answer : Option Error) : Puller → List Event
  | .panicked _ => []
  | _ => [.sourceCloses answer]

def Pusher.closing (answer : Option Error) : Pusher → List Event
  | .panicked _ => []
  | _ => [.sinkCloses answer]

theorem Puller.toClose_of_ne_panicked {p : Puller} (h : ∀ text, p ≠ .panicked text) :
    p.toClose = [.pull] := by
  cases p with
  | panicked text => exact absurd rfl (h text)
  | _ => rfl

theorem Pusher.toClose_of_ne_panicked {p : Pusher} (h : ∀ text, p ≠ .panicked text) :
    p.toClose = [.push] := by
  cases p with
  | panicked text => exact absurd rfl (h text)
  | _ => rfl

theorem toClose_sublist (p : Puller) (q : Pusher) :
    (p.toClose ++ q.toClose).Sublist [.pull, .push] := by
  cases p <;> cases q <;> simp [Puller.toClose, Pusher.toClose]

namespace Run
variable {r r' r₀ : Run} {e : Event} {es before after : List Event} {capacity : Nat}
variable {cancelled : Bool}

/-- The sides whose endpoints have been closed when a run is in its phase. -/
def closesMade (r : Run) : List Stage :=
  match r.phase with
  | .working | .closingSource => []
  | .closingSink => r.puller.toClose
  | .closed => r.puller.toClose ++ r.pusher.toClose

theorem closesMade_prefix (r : Run) : r.closesMade <+: r.puller.toClose ++ r.pusher.toClose := by
  unfold closesMade
  split
  · exact List.nil_prefix
  · exact List.nil_prefix
  · exact List.prefix_append _ _
  · exact List.prefix_rfl

/-- The closes of a run are those of its phase, and an endpoint about to be closed is there. -/
structure Closes (es : List Event) (r : Run) : Prop where
  made : closesIn es = r.closesMade
  source : r.phase = .closingSource → r.puller.toClose = [.pull]
  sink : r.phase = .closingSink → r.pusher.toClose = [.push]

/-- A move that neither closes nor changes the phase leaves nothing more to close. -/
theorem Closes.of_same (hm : Moves r e r') (hr : r.Consistent) (h : Closes es r)
    (hc : e.closed? = none) (hp : r'.phase = r.phase) : Closes (es ++ [e]) r' := by
  obtain ⟨hmade,hsource,hsink⟩ := h
  have hsame : closesIn (es ++ [e]) = closesIn es := by
    rw [closesIn, filterMap_concat, hc]
    simp [closesIn]
  by_cases hw : r.phase = .working
  · refine ⟨?_,?_,?_⟩
    · rw [hsame, hmade]
      simp [closesMade, hp, hw]
    · simp [hp, hw]
    · simp [hp, hw]
  · obtain ⟨hl,hs⟩ := hr.both_ended hw
    have hpuller := hm.puller_eq hl
    have hpusher := hm.pusher_eq hs
    refine ⟨?_,?_,?_⟩
    · rw [hsame, hmade]
      simp [closesMade, hp, hpuller, hpusher]
    · rw [hp, hpuller]
      exact hsource
    · rw [hp, hpusher]
      exact hsink

/-- Once the source is done with, what is left is to close the sink, if it is there. -/
theorem Closes.of_phaseAfterPuller (hp : r.phase = r.phaseAfterPuller)
    (h : closesIn es = r.puller.toClose) : Closes es r := by
  unfold phaseAfterPuller at hp
  cases hs : r.pusher <;> constructor <;> simp_all [closesMade, Pusher.toClose]

theorem Moves.closes (hm : Moves r e r') (hr : r.Consistent) (h : Closes es r) :
    Closes (es ++ [e]) r' := by
  have hmoved := hm
  obtain ⟨hmade,hsource,hsink⟩ := h
  cases hm
  case joins hw hl hs =>
    rw [closesMade, hw] at hmade
    unfold phaseAfterJoin
    split
    · next text hp =>
      refine .of_phaseAfterPuller rfl ?_
      rw [closesIn, filterMap_concat, ← closesIn, hmade]
      simp [hp, Puller.toClose, Event.closed?]
    · next hp =>
      refine ⟨?_,fun _ => Puller.toClose_of_ne_panicked hp,fun h => by cases h⟩
      rw [closesIn, filterMap_concat, ← closesIn, hmade]
      rfl
  case sourceCloses error hw =>
    rw [closesMade, hw] at hmade
    refine .of_phaseAfterPuller rfl ?_
    rw [closesIn, filterMap_concat, ← closesIn, hmade]
    exact (hsource hw).symm
  case sinkCloses error hw =>
    rw [closesMade, hw] at hmade
    refine ⟨?_,fun h => (by cases h),fun h => (by cases h)⟩
    rw [closesIn, filterMap_concat, ← closesIn, hmade, closesMade, hsink hw]
    rfl
  all_goals exact Closes.of_same hmoved hr ⟨hmade,hsource,hsink⟩ rfl rfl

theorem closes_of_steps (h : (start capacity cancelled).steps es = some r) : Closes es r := by
  refine steps_induction (motive := Closes) ?_ ?_ h
  · exact ⟨rfl,fun h => (by cases h),fun h => (by cases h)⟩
  · intro es r e r' hs hc hm
    exact hm.closes (consistent_of_steps hs) hc

theorem closesIn_of_closed (h : (start capacity cancelled).steps es = some r)
    (hp : r.phase = .closed) : closesIn es = r.puller.toClose ++ r.pusher.toClose := by
  rw [(closes_of_steps h).made, closesMade, hp]

theorem closesIn_sublist (h : (start capacity cancelled).steps es = some r) :
    (closesIn es).Sublist [.pull, .push] := by
  rw [(closes_of_steps h).made]
  exact r.closesMade_prefix.sublist.trans (toClose_sublist _ _)

theorem exists_sink_closed (h : r.phase = r.phaseAfterPuller) (answer : Option Error) :
    ∃ r', r.steps (r.pusher.closing answer) = some r' ∧ r'.phase = .closed := by
  unfold phaseAfterPuller at h
  cases hs : r.pusher with
  | panicked text => exact ⟨r,rfl,by simpa [hs] using h⟩
  | _ =>
    have hphase : r.phase = .closingSink := by simpa [hs] using h
    refine ⟨{ r with closeError := r.closeError.or answer, phase := .closed },?_,rfl⟩
    simp [Pusher.closing, steps, step, wind, hphase]

/-- Workers that have ended are joined, and then what is left to close is closed, the source before
the sink, whatever the closes answer. That is the end of the run. -/
theorem exists_wound_up (hw : r.phase = .working) (hl : r.puller.ended = true)
    (hs : r.pusher.ended = true) (first second : Option Error) :
    ∃ r', r.steps (.joins :: r.puller.closing first ++ r.pusher.closing second) = some r' ∧
      r'.phase = .closed := by
  let joined : Run := { r with
    errors := (pullerPanic r.puller ++ pusherPanic r.pusher).foldl FirstError.record r.errors
    phase := r.phaseAfterJoin }
  have hjoins : r.steps [.joins] = some joined := by
    simp only [steps, List.foldlM_cons, List.foldlM_nil, bind_pure]
    exact step_eq_some_iff.mpr (.joins hw hl hs)
  have hsource : ∃ r₁, joined.steps (r.puller.closing first) = some r₁ ∧
      r₁.phase = r₁.phaseAfterPuller ∧ r₁.pusher = r.pusher := by
    cases hp : r.puller with
    | panicked text =>
      refine ⟨joined,rfl,?_,rfl⟩
      simp [joined, phaseAfterJoin, hp, phaseAfterPuller]
    | _ =>
      have hphase : joined.phase = .closingSource := by simp [joined, phaseAfterJoin, hp]
      refine ⟨{ joined with closeError := first, phase := joined.phaseAfterPuller },?_,rfl,rfl⟩
      simp [Puller.closing, steps, step, wind, hphase]
  obtain ⟨r₁,h₁,hphase,hpusher⟩ := hsource
  obtain ⟨r₂,h₂,hclosed⟩ := exists_sink_closed hphase second
  rw [hpusher] at h₂
  refine ⟨r₂,?_,hclosed⟩
  change r.steps ([.joins] ++ r.puller.closing first ++ r.pusher.closing second) = some r₂
  simp only [steps_append, hjoins, Option.bind_some, h₁, h₂]

theorem Moves.no_call (hm : Moves r e r') (hl : r.puller.ended = true)
    (hs : r.pusher.ended = true) : e.ofRead = false ∧ e.ofWrite = false := by
  cases hm <;> simp_all [Event.ofRead, Event.ofWrite, Puller.ended, Pusher.ended]

theorem no_calls_of_ended (h : r₀.steps es = some r) (hl : r₀.puller.ended = true)
    (hs : r₀.pusher.ended = true) : readCallsIn es = [] ∧ writeCallsIn es = [] := by
  suffices hall : (r.puller.ended = true ∧ r.pusher.ended = true) ∧
      readCallsIn es = [] ∧ writeCallsIn es = [] from hall.2
  refine steps_induction (motive := fun es r => (r.puller.ended = true ∧ r.pusher.ended = true) ∧
    readCallsIn es = [] ∧ writeCallsIn es = []) ⟨⟨hl,hs⟩,rfl,rfl⟩ ?_ h
  rintro es r e r' - ⟨⟨hl,hs⟩,hr,hw⟩ hm
  obtain ⟨hread,hwrite⟩ := hm.no_call hl hs
  refine ⟨⟨?_,?_⟩,?_,?_⟩
  · rw [hm.puller_eq hl]
    exact hl
  · rw [hm.pusher_eq hs]
    exact hs
  · simp [hr, hread]
  · simp [hw, hwrite]

/-- When an endpoint is closed, both workers have ended, and no call follows. -/
theorem ended_of_closes (h : (start capacity cancelled).steps (before ++ e :: after) = some r)
    (hc : e.closed?.isSome = true) :
    ∃ r₁, (start capacity cancelled).steps before = some r₁ ∧ r₁.puller.ended = true ∧
      r₁.pusher.ended = true ∧ readCallsIn after = [] ∧ writeCallsIn after = [] := by
  rw [steps_append, Option.bind_eq_some_iff] at h
  obtain ⟨r₁,hb,hrest⟩ := h
  obtain ⟨r₂,hs,ha⟩ := Option.bind_eq_some_iff.mp hrest
  have hm := Moves.of_step hs
  have hworking : r₁.phase ≠ .working := by
    cases hm <;> simp_all [Event.closed?]
  obtain ⟨hl,hp⟩ := (consistent_of_steps hb).both_ended hworking
  refine ⟨r₁,hb,hl,hp,no_calls_of_ended ha ?_ ?_⟩
  · rw [hm.puller_eq hl]
    exact hl
  · rw [hm.pusher_eq hp]
    exact hp

/-- At the end of a run, an endpoint whose worker has not panicked has been closed once. -/
theorem count_closesIn (h : (start capacity cancelled).steps es = some r)
    (hp : r.phase = .closed) :
    ((∀ text, .readPanics text ∉ es) → (closesIn es).count .pull = 1) ∧
    ((∀ text, .writePanics text ∉ es) → (closesIn es).count .push = 1) := by
  have hall := closesIn_of_closed h hp
  have hle := (closesIn_sublist h).count_le
  constructor
  · intro hn
    have hone := Puller.toClose_of_ne_panicked ((puller_ne_panicked_iff h).mpr hn)
    have hpull := hle .pull
    rw [hall, hone, List.count_append] at hpull ⊢
    exact Nat.le_antisymm hpull (Nat.le_add_right 1 _)
  · intro hn
    have hone := Pusher.toClose_of_ne_panicked ((pusher_ne_panicked_iff h).mpr hn)
    have hpush := hle .push
    rw [hall, hone, List.count_append] at hpush ⊢
    exact Nat.le_antisymm hpush (Nat.le_add_left 1 _)

end Run

/-- The runs of an engine together close each endpoint once at most. -/
theorem Engine.Lived.closesIn_sublist {σ κ : Type} {source : σ} {sink : κ} {e : Engine σ κ}
    {runs : List (List Event)} (h : Lived source sink runs e) :
    (closesIn runs.flatten).Sublist [.pull, .push] := by
  cases h with
  | asNew => exact List.nil_sublist _
  | spent hs hr hp hst => simpa using Run.closesIn_sublist hr

namespace Session
variable {σ κ : Type} {source : σ} {sink : κ} {s : Session σ κ} {us : List Use}

/-- Each endpoint is closed once at most, and at the right time, whatever is done with an engine. All
its runs together close the source before the sink and neither one twice. A start that is refused
has no events, makes no run and leaves the engine as it was. A start that is not refused is the
first one to run. At every moment of its run, what has been closed was closed when both workers had
ended, and no call came later. Once they have ended, the closes follow, that of the sink also after
one of the source that failed, and end the run; and then each endpoint whose worker has not panicked
has been closed exactly once. The queues are within the limit of their channel: a start beyond it
panics before there is a run, see `Machine.start`. A close may fail but does not panic. -/
theorem endpoints_closed_once (h : (ofEndpoints source sink).uses us = some s) :
    (closesIn (runsIn us).flatten).Sublist [.pull, .push] ∧
    (∀ cause, s.engine.check = .error cause →
      (∀ cancelled es startedAt finishedAt result e',
        s.engine.startAlong cancelled es startedAt finishedAt = some (result, e') →
        es = [] ∧ e' = s.engine) ∧
      ∀ [Pullable σ] [Pushable κ] cancelled startedAt finishedAt,
        s.engine.start cancelled startedAt finishedAt = ⟨.error cause,s.engine,none⟩) ∧
    ∀ ends, s.engine.check = .ok ends → runsIn us = [] ∧
      ∀ cancelled es r, (Run.start s.engine.settings.queueCapacity cancelled).steps es = some r →
        (closesIn es).Sublist [.pull, .push] ∧
        (∀ before e after, es = before ++ e :: after → e.closed?.isSome = true →
          ∃ r₁, (Run.start s.engine.settings.queueCapacity cancelled).steps before = some r₁ ∧
            r₁.puller.ended = true ∧ r₁.pusher.ended = true ∧
            readCallsIn after = [] ∧ writeCallsIn after = []) ∧
        (r.phase = .working → r.puller.ended = true → r.pusher.ended = true →
          ∀ first second, ∃ r',
            r.steps (.joins :: r.puller.closing first ++ r.pusher.closing second) = some r' ∧
            r'.phase = .closed) ∧
        (r.phase = .closed →
          ((∀ text, .readPanics text ∉ es) → (closesIn es).count .pull = 1) ∧
          ((∀ text, .writePanics text ∉ es) → (closesIn es).count .push = 1)) := by
  have hl := lived_of_uses h
  refine ⟨?_,?_,?_⟩
  · exact hl.closesIn_sublist
  · intro cause hc
    refine ⟨?_,?_⟩
    · intro cancelled es startedAt finishedAt result e' hs
      obtain ⟨hes,_,he⟩ := (Engine.startAlong_of_refused hc).mp hs
      exact ⟨hes,he⟩
    · intro _ _ cancelled startedAt finishedAt
      simp only [Engine.start, hc]
  · intro ends hc
    refine ⟨hl.eq_nil_of_check hc,?_⟩
    intro cancelled es r hs
    refine ⟨Run.closesIn_sublist hs,?_,Run.exists_wound_up,Run.count_closesIn hs⟩
    rintro before e after rfl hclosed
    exact Run.ended_of_closes hs hclosed

/-- A read panics while a write is under way; the write succeeds, and closing the sink fails. -/
def panicThenCloseFails (b : Batch) (cause : Error) : List Event :=
  handOver b 1 ++ [.readStarts, .receives, .writeStarts, .readPanics "lost", .writeReturns (.ok ()),
    .pusherStops, .joins, .sinkCloses (some cause)]

theorem endpoints_closed_once_panicThenCloseFails :
    let us : List Use := [.configures { queueCapacity := 0 }, .starts [] ⟨0,0⟩ ⟨0,0⟩,
      .configures { queueCapacity := 1 }]
    let es := panicThenCloseFails (oneCell 3) (.sink (.described "gone"))
    ∃ s r, (ofEndpoints () ()).uses us = some s ∧
      (Run.start s.engine.settings.queueCapacity false).steps es = some r ∧ r.phase = .closed ∧
      runsIn us = [] ∧ (closesIn es).Sublist [.pull, .push] ∧ (closesIn es).count .push = 1 := by
  intro us es
  have hs : ∃ s, (ofEndpoints () ()).uses us = some s ∧ s.engine.check = .ok ((), ()) ∧
      ∃ r, (Run.start s.engine.settings.queueCapacity false).steps es = some r ∧
        r.phase = .closed := ⟨_,rfl,rfl,_,rfl,rfl⟩
  obtain ⟨s,hs,hc,r,hr,hp⟩ := hs
  obtain ⟨hnew,hrun⟩ := (endpoints_closed_once hs).2.2 _ hc
  obtain ⟨hsub,_,_,hcount⟩ := hrun false es r hr
  exact ⟨s,r,hs,hr,hp,hnew,hsub,(hcount hp).2 (by simp [es, panicThenCloseFails, handOver])⟩

end Session
end Tabular.Transfer
