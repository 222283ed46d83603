import Tabular.Proofs.Transfer.Starts
import Tabular.Transfer.Schedule

/-! # The schedule is one interleaving

Whatever a scene does to its run, it does by events that are possible in their turn. So what holds
along every list of events holds of the run that the schedule comes to.
-/
namespace Tabular.Transfer

def Run.Leads (r r' : Run) : Prop := ∃ es, r.steps es = some r'

namespace Run
variable {r r' r'' : Run}

@[refl] theorem Leads.refl (r : Run) : r.Leads r := ⟨[],rfl⟩

theorem Leads.trans (h : r.Leads r') (h' : r'.Leads r'') : r.Leads r'' := by
  obtain ⟨es,hs⟩ := h
  obtain ⟨es',hs'⟩ := h'
  exact ⟨es ++ es',by rw [steps_append, hs]; exact hs'⟩

theorem leads_of_step {e : Event} (h : r.step e = some r') : r.Leads r' := by
  refine ⟨[e],?_⟩
  simp [steps, h]

end Run

namespace Scene
variable {σ κ : Type} {s s' : Scene σ κ}

theorem leads_happen (s : Scene σ κ) (e : Event) : s.run.Leads (s.happen e).run := by
  cases h : s.run.step e with
  | none => simp [happen, h, Run.Leads.refl]
  | some r => simpa [happen, h] using Run.leads_of_step h

theorem leads_fireIf (s : Scene σ κ) (fires : Bool) : s.run.Leads (s.fireIf fires).run := by
  cases fires
  · exact .refl _
  · exact leads_happen s .callerCancels

theorem leads_ite {c : Prop} [Decidable c] (h : s.run.Leads s'.run) :
    s.run.Leads (if c then s' else s).run := by
  split
  · exact h
  · exact .refl _

theorem leads_getD {o : Option (Scene σ κ)} (h : ∀ s', o = some s' → s.run.Leads s'.run) :
    s.run.Leads (o.getD s).run := by
  cases o with
  | none => exact .refl _
  | some s' => exact h s' rfl

variable [Pullable σ] [Pushable κ]

omit [Pushable κ] in
theorem leads_pollRead (h : s.pollRead = some s') : s.run.Leads s'.run := by
  unfold pollRead at h
  split at h
  · cases h
  · cases h
  · cases h
    exact leads_fireIf _ true
  · next fires how counters source _ =>
    cases h
    refine (leads_fireIf { s with source, counters } fires).trans ?_
    cases how <;> exact leads_happen _ _

omit [Pullable σ] in
theorem leads_pollWrite {b : Batch} (h : s.pollWrite b = some s') : s.run.Leads s'.run := by
  unfold pollWrite at h
  split at h
  · cases h
  · cases h
  · cases h
    exact leads_fireIf _ true
  · next fires how counters sink _ =>
    cases h
    refine (leads_fireIf { s with sink, counters } fires).trans ?_
    cases how <;> exact leads_happen _ _

omit [Pushable κ] in
theorem leads_beginRead (s : Scene σ κ) : s.run.Leads s.beginRead.run := by
  unfold beginRead
  obtain ⟨counters,source⟩ := Pullable.begin s.counters s.source
  refine (leads_happen { s with counters, source } .readStarts).trans ?_
  exact leads_getD fun _ => leads_pollRead

omit [Pullable σ] in
theorem leads_beginWrite (s : Scene σ κ) (b : Batch) : s.run.Leads (s.beginWrite b).run := by
  unfold beginWrite
  obtain ⟨counters,sink⟩ := Pushable.begin s.counters s.sink
  refine (leads_happen { s with counters, sink } .writeStarts).trans ?_
  exact leads_getD fun _ => leads_pollWrite

omit [Pushable κ] in
theorem leads_movePuller (h : s.movePuller = some s') : s.run.Leads s'.run := by
  unfold movePuller at h
  split at h
  · cases h
    exact leads_happen s _
  · split at h
    · cases h
      exact leads_beginRead s
    · exact leads_pollRead h
    · obtain ⟨r,hr,rfl⟩ := Option.map_eq_some_iff.mp h
      exact Run.leads_of_step hr
    · cases h
    · cases h

omit [Pullable σ] in
theorem leads_movePusher (h : s.movePusher = some s') : s.run.Leads s'.run := by
  unfold movePusher at h
  split at h
  · cases h
    exact leads_happen s _
  · split at h
    · obtain ⟨r,hr,rfl⟩ := Option.map_eq_some_iff.mp h
      exact Run.leads_of_step hr
    · cases h
      exact leads_beginWrite s _
    · exact leads_pollWrite h
    · cases h
    · cases h

/-- Noting how far the reads have come does not touch the run. -/
theorem run_of_note (h : s.note = some s') : s'.run = s.run := by
  unfold note at h
  rcases Option.or_eq_some_iff.mp h with h | ⟨_,h⟩
  all_goals
    split at h
    · split at h <;> cases h
      rfl
    · cases h

theorem leads_work (fuel : Nat) (s : Scene σ κ) : s.run.Leads (s.work fuel).run := by
  induction fuel generalizing s with
  | zero => exact .refl _
  | succ fuel ih =>
    unfold work
    split
    · next s' hm =>
      refine Run.Leads.trans ?_ (ih s')
      rcases Option.or_eq_some_iff.mp hm with hm | ⟨_,hm⟩
      · rcases Option.or_eq_some_iff.mp hm with hm | ⟨_,hm⟩
        · exact leads_movePuller hm
        · exact leads_movePusher hm
      · rw [run_of_note hm]
    · rfl

theorem leads_windUp (s : Scene σ κ) : s.run.Leads s.windUp.run := by
  refine (leads_happen s .joins).trans ?_
  unfold windUp
  generalize s.happen .joins = s₁
  dsimp only
  have hsource : s₁.run.Leads (if s₁.run.phase = .closingSource then
      { s₁ with source := (Pullable.close s₁.source).2 }.happen
        (.sourceCloses (Pullable.close s₁.source).1) else s₁).run :=
    leads_ite (leads_happen { s₁ with source := (Pullable.close s₁.source).2 } _)
  refine hsource.trans ?_
  generalize ite (s₁.run.phase = .closingSource) _ s₁ = s₂
  exact leads_ite (leads_happen { s₂ with sink := (Pushable.close s₂.sink).2 } _)

/-- The run of a scene that has been played is one that events lead to. -/
theorem leads_play (capacity : Nat) (cancelled : Bool) (source : σ) (sink : κ) :
    (Run.start capacity cancelled).Leads (play capacity cancelled source sink).run :=
  (leads_work _ { run := .start capacity cancelled, source, sink }).trans (leads_windUp _)

end Scene

/-- A start is a start along some events, unless a call under way never returns. -/
theorem Engine.start_eq_startAlong {σ κ : Type} [Pullable σ] [Pushable κ] (e : Engine σ κ)
    (cancelled : Bool) (startedAt finishedAt : Calendar.Instant)
    (h : ∀ scene, (e.start cancelled startedAt finishedAt).scene = some scene →
      scene.run.phase = .closed) :
    ∃ es, e.startAlong cancelled es startedAt finishedAt =
      some ((e.start cancelled startedAt finishedAt).result,
        (e.start cancelled startedAt finishedAt).engine) := by
  cases hc : e.check with
  | error err => exact ⟨[],by simp [startAlong, start, hc]⟩
  | ok ends =>
    obtain ⟨source,sink⟩ := ends
    obtain ⟨es,hs⟩ := Scene.leads_play e.settings.queueCapacity cancelled source sink
    have hp := h (.play e.settings.queueCapacity cancelled source sink) (by simp only [start, hc])
    exact ⟨es,by simp [startAlong, start, hc, hs, hp]⟩

end Tabular.Transfer
