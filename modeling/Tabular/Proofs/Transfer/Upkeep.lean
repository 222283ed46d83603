import Tabular.Transfer.Engine

/-! # What a run does to its sink

A schedule touches the sink by the operations of the sink and by nothing else, so what each of these
keeps is kept from the beginning of a run to its end.
-/
namespace Tabular.Transfer

structure Pushable.Keeps {κ : Type} [Pushable κ] (P : κ → Prop) : Prop where
  begin_keeps : ∀ c k, P k → P (Pushable.begin c k).2
  observes_keeps : ∀ c k b k', P k → Pushable.poll c k b = .observes k' → P k'
  fires_keeps : ∀ c k b k', P k → Pushable.poll c k b = .fires k' → P k'
  ends_keeps : ∀ c k b fires how c' k', P k → Pushable.poll c k b = .ends fires how c' k' → P k'
  close_keeps : ∀ k, P k → P (Pushable.close k).2

namespace Scene
variable {σ κ : Type} {s s' : Scene σ κ}

@[simp] theorem sink_fireIf (s : Scene σ κ) (fires : Bool) : (s.fireIf fires).sink = s.sink := by
  cases fires <;> rfl

variable {P : κ → Prop}

theorem keeps_getD {o : Option (Scene σ κ)} (hs : P s.sink) (h : ∀ s', o = some s' → P s'.sink) :
    P (o.getD s).sink := by
  cases o with
  | none => exact hs
  | some s' => exact h s' rfl

theorem keeps_ite {c : Prop} [Decidable c] (hs : P s.sink) (h : P s'.sink) :
    P (if c then s' else s).sink := by
  split
  · exact h
  · exact hs

variable [Pullable σ] [Pushable κ]

omit [Pushable κ] in
theorem sink_of_pollRead (h : s.pollRead = some s') : s'.sink = s.sink := by
  unfold pollRead at h
  split at h
  · cases h
  · cases h
  · cases h
    exact sink_fireIf _ _
  · next how _ _ _ =>
    cases h
    cases how <;> exact sink_fireIf _ _

omit [Pushable κ] in
theorem sink_beginRead (s : Scene σ κ) : s.beginRead.sink = s.sink := by
  unfold beginRead
  obtain ⟨counters,source⟩ := Pullable.begin s.counters s.source
  exact keeps_getD (P := (· = s.sink)) rfl fun _ => sink_of_pollRead

omit [Pushable κ] in
theorem sink_of_movePuller (h : s.movePuller = some s') : s'.sink = s.sink := by
  unfold movePuller at h
  split at h
  · cases h
    rfl
  · split at h
    · cases h
      exact sink_beginRead s
    · exact sink_of_pollRead h
    · obtain ⟨r,_,rfl⟩ := Option.map_eq_some_iff.mp h
      rfl
    · cases h
    · cases h

variable (hP : Pushable.Keeps P)
include hP

omit [Pullable σ] in
theorem keeps_pollWrite {b : Batch} (hs : P s.sink) (h : s.pollWrite b = some s') : P s'.sink := by
  unfold pollWrite at h
  split at h
  · cases h
  · cases h
  · next sink hp =>
    cases h
    rw [sink_fireIf]
    exact hP.fires_keeps _ _ _ _ hs hp
  · next fires how counters sink hp =>
    cases h
    have hk := hP.ends_keeps _ _ _ _ _ _ _ hs hp
    cases how <;> exact (sink_fireIf { s with sink, counters } fires).symm ▸ hk

omit [Pullable σ] in
theorem keeps_beginWrite {b : Batch} (hs : P s.sink) : P (s.beginWrite b).sink := by
  have hb := hP.begin_keeps s.counters s.sink hs
  unfold beginWrite
  revert hb
  obtain ⟨counters,sink⟩ := Pushable.begin s.counters s.sink
  intro hb
  exact keeps_getD hb fun _ => keeps_pollWrite hP hb

omit [Pullable σ] in
theorem keeps_movePusher (hs : P s.sink) (h : s.movePusher = some s') : P s'.sink := by
  unfold movePusher at h
  split at h
  · cases h
    exact hs
  · split at h
    · obtain ⟨r,_,rfl⟩ := Option.map_eq_some_iff.mp h
      exact hs
    · cases h
      exact keeps_beginWrite hP hs
    · exact keeps_pollWrite hP hs h
    · cases h
    · cases h

theorem keeps_note (hs : P s.sink) (h : s.note = some s') : P s'.sink := by
  unfold note at h
  rcases Option.or_eq_some_iff.mp h with h | ⟨_,h⟩
  · split at h
    · split at h
      · next hp =>
        cases h
        exact hP.observes_keeps _ _ _ _ hs hp
      · cases h
    · cases h
  · split at h
    · split at h
      · cases h
        exact hs
      · cases h
    · cases h

theorem keeps_work (fuel : Nat) (hs : P s.sink) : P (s.work fuel).sink := by
  induction fuel generalizing s with
  | zero => exact hs
  | succ fuel ih =>
    unfold work
    split
    · next s' hm =>
      refine ih ?_
      rcases Option.or_eq_some_iff.mp hm with hm | ⟨_,hm⟩
      · rcases Option.or_eq_some_iff.mp hm with hm | ⟨_,hm⟩
        · rw [sink_of_movePuller hm]
          exact hs
        · exact keeps_movePusher hP hs hm
      · exact keeps_note hP hs hm
    · exact hs

theorem keeps_windUp (hs : P s.sink) : P s.windUp.sink := by
  unfold windUp
  -- each stage is named before the next one is looked at, which mentions it several times
  have hj : P (s.happen .joins).sink := hs
  revert hj
  generalize s.happen .joins = s₁
  intro hj
  dsimp only
  have hsource : P (if s₁.run.phase = .closingSource then
      { s₁ with source := (Pullable.close s₁.source).2 }.happen
        (.sourceCloses (Pullable.close s₁.source).1) else s₁).sink := keeps_ite hj hj
  revert hsource
  generalize ite (s₁.run.phase = .closingSource) _ s₁ = s₂
  intro hsource
  exact keeps_ite hsource (hP.close_keeps _ hsource)

/-- What the operations of a sink keep holds at the end of a run if it held at the beginning. -/
theorem keeps_play (capacity : Nat) (cancelled : Bool) (source : σ) {sink : κ} (hs : P sink) :
    P (play capacity cancelled source sink).sink :=
  keeps_windUp hP (keeps_work hP _ hs)

end Scene

namespace Engine
variable {σ κ : Type} {e : Engine σ κ}

/-- The endpoints of a run are those that the engine holds. -/
theorem endpoints_of_check {ends : σ × κ} (h : e.check = .ok ends) :
    e.source = some ends.1 ∧ e.sink = some ends.2 := by
  unfold check at h
  split at h
  · split at h
    · cases h
    · split at h
      · next hs hk =>
        cases h
        exact ⟨hs,hk⟩
      · cases h
  · cases h

theorem keeps_start [Pullable σ] [Pushable κ] {P : κ → Prop} (hP : Pushable.Keeps P)
    (hs : ∀ sink, e.sink = some sink → P sink) {cancelled : Bool}
    {startedAt finishedAt : Calendar.Instant} {scene : Scene σ κ}
    (h : (e.start cancelled startedAt finishedAt).scene = some scene) : P scene.sink := by
  unfold start at h
  split at h
  · cases h
  · next source sink hc =>
    cases h
    exact Scene.keeps_play hP _ _ source (hs sink (endpoints_of_check hc).2)

end Engine
end Tabular.Transfer
