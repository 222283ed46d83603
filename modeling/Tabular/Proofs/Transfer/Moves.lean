import Mathlib.Data.List.Induction
import Tabular.Transfer.Engine

/-! # The moves of a run

`Run.Moves` names every way in which a run can go on, with what it needs and what it changes, and
`step_eq_some_iff` says that these are the steps of a run and no others. What holds of all runs is
shown by `steps_induction` from what a single move keeps.
-/
namespace Tabular.Transfer.Run

inductive Moves : Run → Event → Run → Prop
  | callerCancels (r : Run) : Moves r .callerCancels { r with callerFired := true, fired := true }
  | readStarts {r : Run} (hp : r.puller = .idle) (hf : r.fired = false) :
      Moves r .readStarts { r with puller := .reading }
  | readGives {r : Run} {b : Batch} (hp : r.puller = .reading) :
      Moves r (.readReturns (.ok (some b))) { r with
        puller := .holding b, batchesRead := r.batchesRead + 1, rowsRead := r.rowsRead + b.rows }
  | readEnds {r : Run} (hp : r.puller = .reading) :
      Moves r (.readReturns (.ok none)) { r with puller := .stopped }
  | readFails {r : Run} {cause : Error} (hp : r.puller = .reading) :
      Moves r (.readReturns (.error cause)) { r.fail .pull cause with puller := .stopped }
  | readPanics {r : Run} {text : String} (hp : r.puller = .reading) :
      Moves r (.readPanics text) { r with puller := .panicked text }
  | sends {r : Run} {b : Batch} (hp : r.puller = .holding b) (hf : r.fired = false)
      (he : r.pusher.ended = false) (hq : r.queue.length < r.capacity) :
      Moves r .sends { r with puller := .idle, queue := r.queue ++ [b] }
  | pullerStops {r : Run} (hm : r.pullerMayStop = true) :
      Moves r .pullerStops { r with puller := .stopped }
  | receives {r : Run} {b : Batch} {bs : List Batch} (hp : r.pusher = .idle)
      (hq : r.queue = b :: bs) (hf : r.fired = false) :
      Moves r .receives { r with pusher := .holding b, queue := bs }
  | writeStarts {r : Run} {b : Batch} (hp : r.pusher = .holding b) (hf : r.fired = false) :
      Moves r .writeStarts { r with pusher := .writing b }
  | writeSucceeds {r : Run} {b : Batch} (hp : r.pusher = .writing b) :
      Moves r (.writeReturns (.ok ())) { r with
        pusher := .idle, batchesWritten := r.batchesWritten + 1
        rowsWritten := r.rowsWritten + b.rows }
  | writeFails {r : Run} {b : Batch} {cause : Error} (hp : r.pusher = .writing b) :
      Moves r (.writeReturns (.error cause)) ((r.fail .push cause).endPusher .stopped)
  | writePanics {r : Run} {b : Batch} {text : String} (hp : r.pusher = .writing b) :
      Moves r (.writePanics text) (r.endPusher (.panicked text))
  | pusherStops {r : Run} (hm : r.pusherMayStop = true) :
      Moves r .pusherStops (r.endPusher .stopped)
  | joins {r : Run} (hw : r.phase = .working) (hl : r.puller.ended = true)
      (hs : r.pusher.ended = true) :
      Moves r .joins { r with
        errors := (pullerPanic r.puller ++ pusherPanic r.pusher).foldl FirstError.record r.errors
        phase := r.phaseAfterJoin }
  | sourceCloses {r : Run} {error : Option Error} (hc : r.phase = .closingSource) :
      Moves r (.sourceCloses error) { r with closeError := error, phase := r.phaseAfterPuller }
  | sinkCloses {r : Run} {error : Option Error} (hc : r.phase = .closingSink) :
      Moves r (.sinkCloses error) { r with
        closeError := r.closeError.or error, phase := .closed }

variable {r r' r₀ : Run} {e : Event} {es : List Event}

private theorem Moves.of_pull (h : r.pull e = some r') : Moves r e r' := by
  unfold pull at h
  split at h
  case h_1 =>
    split at h
    · next hp =>
      split at h
      · simp at h
      · next hf => cases h; exact .readStarts hp (Bool.eq_false_iff.mpr hf)
    · simp at h
  case h_2 =>
    split at h
    · cases h; exact .readGives ‹_›
    · cases h; exact .readEnds ‹_›
    · cases h; exact .readFails ‹_›
    · simp at h
  case h_3 =>
    split at h
    · cases h; exact .readPanics ‹_›
    · simp at h
  case h_4 =>
    split at h
    · split at h
      · next hp hc =>
        cases h
        simp only [Bool.and_eq_true, Bool.not_eq_true', decide_eq_true_eq] at hc
        exact .sends hp hc.1.1 hc.1.2 hc.2
      · simp at h
    · simp at h
  case h_5 =>
    split at h
    · cases h; exact .pullerStops ‹_›
    · simp at h
  case h_6 => simp at h

private theorem Moves.of_push (h : r.push e = some r') : Moves r e r' := by
  unfold push at h
  split at h
  case h_1 =>
    split at h
    · next hp hq =>
      split at h
      · simp at h
      · next hf => cases h; exact .receives hp hq (Bool.eq_false_iff.mpr hf)
    · simp at h
  case h_2 =>
    split at h
    · next hp =>
      split at h
      · simp at h
      · next hf => cases h; exact .writeStarts hp (Bool.eq_false_iff.mpr hf)
    · simp at h
  case h_3 =>
    split at h
    · cases h; exact .writeSucceeds ‹_›
    · cases h; exact .writeFails ‹_›
    · simp at h
  case h_4 =>
    split at h
    · cases h; exact .writePanics ‹_›
    · simp at h
  case h_5 =>
    split at h
    · cases h; exact .pusherStops ‹_›
    · simp at h
  case h_6 => simp at h

private theorem Moves.of_wind (h : r.wind e = some r') : Moves r e r' := by
  unfold wind at h
  split at h
  case h_1 =>
    split at h
    · next hc =>
      cases h
      simp only [Bool.and_eq_true, decide_eq_true_eq] at hc
      exact .joins hc.1.1 hc.1.2 hc.2
    · simp at h
  case h_2 =>
    split at h
    · cases h; exact .sourceCloses ‹_›
    · simp at h
  case h_3 =>
    split at h
    · cases h; exact .sinkCloses ‹_›
    · simp at h
  case h_4 => simp at h

theorem Moves.of_step (h : r.step e = some r') : Moves r e r' := by
  cases e with
  | callerCancels => cases h; exact .callerCancels r
  | readStarts | readReturns | readPanics | sends | pullerStops => exact .of_pull h
  | receives | writeStarts | writeReturns | writePanics | pusherStops => exact .of_push h
  | joins | sourceCloses | sinkCloses => exact .of_wind h

/-- The moves are the steps. -/
theorem step_eq_some_iff : r.step e = some r' ↔ Moves r e r' := by
  refine ⟨Moves.of_step, fun h => ?_⟩
  cases h <;> simp_all [step, pull, push, wind]

theorem steps_append (r : Run) (es fs : List Event) :
    r.steps (es ++ fs) = (r.steps es).bind (·.steps fs) := by
  simp [steps, List.foldlM_append]

theorem steps_concat (r : Run) (es : List Event) (e : Event) :
    r.steps (es ++ [e]) = (r.steps es).bind (·.step e) := by
  simp [steps]

/-- What holds when nothing has happened and is kept by every possible event holds after all
possible events. -/
theorem steps_induction {motive : List Event → Run → Prop} (start : motive [] r₀)
    (move : ∀ {es r e r'}, r₀.steps es = some r → motive es r → Moves r e r' →
      motive (es ++ [e]) r') (h : r₀.steps es = some r) : motive es r := by
  induction es using List.reverseRecOn generalizing r with
  | nil => cases h; exact start
  | append_singleton es e ih =>
    rw [steps_concat, Option.bind_eq_some_iff] at h
    obtain ⟨r₁,hs,he⟩ := h
    exact move hs (ih hs) (.of_step he)

end Tabular.Transfer.Run
