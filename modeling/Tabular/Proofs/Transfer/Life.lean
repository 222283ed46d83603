import Tabular.Proofs.Transfer.Order

/-! # The life of an engine

An engine is given settings and started, any number of times and in any order, and its caller may
fire the token meanwhile. Whatever is done, the engine is as good as new until a start is not
refused; the run of that start goes to its end and leaves the engine spent, and from then on every
start is refused and nothing about the outcome changes any more.
-/
namespace Tabular.Transfer

def Event.byCaller : Event → Bool
  | callerCancels => true
  | _ => false

/-- What a caller does with an engine. A start comes with the events of its run, and with none if it
is refused. The caller may fire the token that starts are given, or take a new one. -/
inductive Use where
  | configures (settings : Settings)
  | starts (events : List Event) (startedAt finishedAt : Calendar.Instant)
  | cancels
  | renews

def Use.events : Use → List Event
  | starts es _ _ => es
  | _ => []

def runsIn (us : List Use) : List (List Event) := (us.map Use.events).filter (!·.isEmpty)

theorem runsIn_concat (us : List Use) (u : Use) : runsIn (us ++ [u]) = runsIn us ++ runsIn [u] := by
  simp [runsIn]

/-- An engine with its caller, whose token may have fired. -/
structure Session (σ κ : Type) where
  engine : Engine σ κ
  fired : Bool := false

namespace Session
variable {σ κ : Type}

def ofEndpoints (source : σ) (sink : κ) : Session σ κ := { engine := .ofEndpoints source sink }

def use (s : Session σ κ) : Use → Option (Session σ κ)
  | .configures settings => some { s with engine := s.engine.withSettings settings }
  | .starts es startedAt finishedAt =>
    (s.engine.startAlong s.fired es startedAt finishedAt).map fun (_, engine) =>
      { engine, fired := s.fired || es.any Event.byCaller }
  | .cancels => some { s with fired := true }
  | .renews => some { s with fired := false }

def uses (s : Session σ κ) (us : List Use) : Option (Session σ κ) := us.foldlM use s

end Session

theorem Run.isTerminal_stateOf (x : Except Error Unit) : (stateOf x).isTerminal = true := by
  unfold stateOf
  split <;> rfl

/-- Settings cannot be used exactly if the queue has no room. -/
theorem Settings.validate_eq_error_iff {settings : Settings} {cause : Error} :
    settings.validate = .error cause ↔
      settings.queueCapacity = 0 ∧ cause = .validation (.zero "queue_capacity") := by
  unfold validate
  split
  · next hz => simp [hz, eq_comm]
  · next hz => simp [hz]

namespace Engine
variable {σ κ : Type} {source : σ} {sink : κ} {e e' : Engine σ κ} {cancelled : Bool}
variable {es : List Event} {startedAt finishedAt : Calendar.Instant}
variable {result : Except Error Metrics}

/-- An engine that has not run is refused for nothing but its settings. -/
theorem check_asNew (source : σ) (sink : κ) (settings : Settings) :
    ((ofEndpoints source sink).withSettings settings).check =
      settings.validate.map fun _ => (source, sink) := by
  unfold check
  cases h : settings.validate <;> simp [withSettings, ofEndpoints, h, Except.map]

theorem check_of_not_idle (h : e.state ≠ .idle) :
    e.check = .error (.validation (.notIdle e.state)) :=
  if_neg h

theorem startAlong_of_refused {cause : Error} (hc : e.check = .error cause) :
    e.startAlong cancelled es startedAt finishedAt = some (result, e') ↔
      es = [] ∧ result = .error cause ∧ e' = e := by
  simp only [startAlong, hc]
  cases es with
  | nil => simp [eq_comm]
  | cons => simp

theorem check_asNew_ne_noEndpoints (source : σ) (sink : κ) (settings : Settings) :
    ((ofEndpoints source sink).withSettings settings).check ≠
      .error (.validation .noEndpoints) := by
  rw [check_asNew]
  intro hn
  cases hv : settings.validate with
  | ok _ =>
    rw [hv] at hn
    cases hn
  | error cause =>
    obtain ⟨_,rfl⟩ := Settings.validate_eq_error_iff.mp hv
    rw [hv] at hn
    cases hn

theorem startAlong_asNew_of_invalid {settings : Settings} {cause : Error}
    (hv : settings.validate = .error cause) :
    cause.isValidation = true ∧ ∀ cancelled es startedAt finishedAt result e',
      ((ofEndpoints source sink).withSettings settings).startAlong cancelled es startedAt
          finishedAt = some (result, e') ↔
        es = [] ∧ result = .error cause ∧ e' = (ofEndpoints source sink).withSettings settings := by
  have hc := check_asNew source sink settings
  rw [hv] at hc
  obtain ⟨_,rfl⟩ := Settings.validate_eq_error_iff.mp hv
  exact ⟨rfl,fun _ _ _ _ _ _ => startAlong_of_refused hc⟩

/-- A run has been made: the endpoints are gone, and state and times are those of its end. -/
structure Spent (e : Engine σ κ) : Prop where
  terminal : e.state.isTerminal = true
  source : e.source = none
  sink : e.sink = none
  startedAt : e.metrics.startedAt.isSome = true
  finishedAt : e.metrics.finishedAt.isSome = true

theorem spent_of_startAlong {ends : σ × κ} (hc : e.check = .ok ends)
    (h : e.startAlong cancelled es startedAt finishedAt = some (result, e')) : e'.Spent := by
  obtain ⟨r,_,_,_,hm,hst⟩ := startAlong_eq_some hc h
  have hends : e'.source = none ∧ e'.sink = none := by
    simp only [startAlong, hc] at h
    split at h
    · split at h
      · cases h
        exact ⟨rfl,rfl⟩
      · cases h
    · cases h
  refine ⟨?_,hends.1,hends.2,?_,?_⟩
  · rw [hst]
    exact Run.isTerminal_stateOf _
  · rw [hm]
    rfl
  · rw [hm]
    rfl

theorem Spent.not_idle (h : e.Spent) : e.state ≠ .idle := by
  intro hi
  have ht := h.terminal
  rw [hi] at ht
  cases ht

/-- What runs have made of an engine: it is as good as new, or it has gone to the end of one. -/
inductive Lived (source : σ) (sink : κ) : List (List Event) → Engine σ κ → Prop
  | asNew (settings : Settings) :
      Lived source sink [] ((ofEndpoints source sink).withSettings settings)
  | spent {e : Engine σ κ} {es : List Event} {r : Run} {capacity : Nat} {cancelled : Bool}
      (hs : e.Spent) (hr : (Run.start capacity cancelled).steps es = some r)
      (hp : r.phase = .closed) (hst : e.state = Run.stateOf r.result) :
      Lived source sink [es] e

/-- A start that is not refused is the first one to run. -/
theorem Lived.eq_nil_of_check {runs : List (List Event)} (h : Lived source sink runs e)
    {ends : σ × κ} (hc : e.check = .ok ends) : runs = [] := by
  cases h with
  | asNew => rfl
  | spent hs =>
    rw [check_of_not_idle hs.not_idle] at hc
    cases hc

theorem Lived.withSettings {runs : List (List Event)} (h : Lived source sink runs e)
    (settings : Settings) : Lived source sink runs (e.withSettings settings) := by
  cases h with
  | asNew => exact .asNew settings
  | spent hs hr hp hst =>
    exact .spent ⟨hs.terminal,hs.source,hs.sink,hs.startedAt,hs.finishedAt⟩ hr hp hst

theorem ne_nil_of_closed {capacity : Nat} {r : Run}
    (h : (Run.start capacity cancelled).steps es = some r) (hp : r.phase = .closed) :
    es ≠ [] := by
  rintro rfl
  cases h
  cases hp

theorem Lived.startAlong {runs : List (List Event)} (h : Lived source sink runs e)
    (hs : e.startAlong cancelled es startedAt finishedAt = some (result, e')) :
    Lived source sink (runs ++ [es].filter (!·.isEmpty)) e' := by
  cases hc : e.check with
  | error cause =>
    obtain ⟨rfl,_,rfl⟩ := (startAlong_of_refused hc).mp hs
    simpa using h
  | ok ends =>
    obtain ⟨r,hr,hp,_,_,hst⟩ := startAlong_eq_some hc hs
    have hsome := ne_nil_of_closed hr hp
    cases h with
    | asNew =>
      have hlived : Lived source sink [es] e' := .spent (spent_of_startAlong hc hs) hr hp hst
      simpa [hsome] using hlived
    | spent hspent =>
      rw [check_of_not_idle hspent.not_idle] at hc
      cases hc

end Engine

namespace Session
open Engine (Lived Spent)
variable {σ κ : Type} {source : σ} {sink : κ} {s s' : Session σ κ} {u : Use} {us : List Use}

theorem lived_of_use {runs : List (List Event)} (h : Lived source sink runs s.engine)
    (hu : s.use u = some s') : Lived source sink (runs ++ runsIn [u]) s'.engine := by
  cases u with
  | configures settings =>
    cases hu
    simpa [runsIn, Use.events] using h.withSettings settings
  | cancels | renews =>
    cases hu
    simpa [runsIn, Use.events] using h
  | starts es startedAt finishedAt =>
    obtain ⟨⟨result,engine⟩,hs,rfl⟩ := Option.map_eq_some_iff.mp hu
    exact h.startAlong hs

theorem lived_of_uses (h : (ofEndpoints source sink).uses us = some s) :
    Lived source sink (runsIn us) s.engine := by
  induction us using List.reverseRecOn generalizing s with
  | nil =>
    cases h
    exact .asNew {}
  | append_singleton us u ih =>
    rw [uses, List.foldlM_append, Option.bind_eq_bind, Option.bind_eq_some_iff] at h
    obtain ⟨s₁,h₁,hu⟩ := h
    rw [runsIn_concat]
    refine lived_of_use (ih h₁) ?_
    simpa using hu

theorem spent_of_use (h : s.engine.Spent) (hu : s.use u = some s') :
    s'.engine.Spent ∧ s'.engine.state = s.engine.state ∧ s'.engine.metrics = s.engine.metrics := by
  cases u with
  | configures settings =>
    cases hu
    exact ⟨⟨h.terminal,h.source,h.sink,h.startedAt,h.finishedAt⟩,rfl,rfl⟩
  | cancels | renews =>
    cases hu
    exact ⟨h,rfl,rfl⟩
  | starts es startedAt finishedAt =>
    obtain ⟨⟨result,engine⟩,hs,rfl⟩ := Option.map_eq_some_iff.mp hu
    have hc := Engine.check_of_not_idle h.not_idle
    obtain ⟨_,_,rfl⟩ := (Engine.startAlong_of_refused hc).mp hs
    exact ⟨h,rfl,rfl⟩

theorem spent_of_uses (h : s.engine.Spent) (hu : s.uses us = some s') :
    s'.engine.state = s.engine.state ∧ s'.engine.metrics = s.engine.metrics := by
  induction us generalizing s with
  | nil =>
    cases hu
    exact ⟨rfl,rfl⟩
  | cons u us ih =>
    rw [uses, List.foldlM_cons, Option.bind_eq_bind, Option.bind_eq_some_iff] at hu
    obtain ⟨s₁,hu₁,hrest⟩ := hu
    obtain ⟨hspent,hst,hm⟩ := spent_of_use h hu₁
    obtain ⟨hst',hm'⟩ := ih hspent hrest
    exact ⟨hst'.trans hst,hm'.trans hm⟩

/-- An engine runs at most once, and refuses every other start without a trace. Between uses it is
idle or at its end, and it holds its endpoints and lacks its times exactly while it is idle, so that
no start is refused for missing endpoints. An idle engine that is started with settings that cannot
be used answers with a validation error and stays as it was; with good settings it is a new engine,
and a start is not refused. An engine at its end refuses every start, and whatever is done with it,
state and metrics stay. -/
theorem runs_at_most_once (h : (ofEndpoints source sink).uses us = some s) :
    (runsIn us).length ≤ 1 ∧ (s.engine.state = .idle ↔ runsIn us = []) ∧
    (s.engine.state = .idle ∨ s.engine.state.isTerminal = true) ∧
    (s.engine.source.isSome = true ↔ s.engine.state = .idle) ∧
    (s.engine.sink.isSome = true ↔ s.engine.state = .idle) ∧
    s.engine.check ≠ .error (.validation .noEndpoints) ∧
    (s.engine.metrics.startedAt.isSome = true ↔ s.engine.state.isTerminal = true) ∧
    (s.engine.metrics.finishedAt.isSome = true ↔ s.engine.state.isTerminal = true) ∧
    (s.engine.state = .idle →
      (∀ cause, s.engine.settings.validate = .error cause → cause.isValidation = true ∧
        ∀ cancelled es startedAt finishedAt result e',
          s.engine.startAlong cancelled es startedAt finishedAt = some (result, e') ↔
            es = [] ∧ result = .error cause ∧ e' = s.engine) ∧
      ∀ settings, settings.validate = .ok () →
        (s.engine.withSettings settings).check = .ok (source, sink) ∧
        s.engine.withSettings settings =
          (Engine.ofEndpoints source sink).withSettings settings) ∧
    (s.engine.state.isTerminal = true →
      (∀ cancelled es startedAt finishedAt result e',
        s.engine.startAlong cancelled es startedAt finishedAt = some (result, e') ↔
          es = [] ∧ result = .error (.validation (.notIdle s.engine.state)) ∧ e' = s.engine) ∧
      ∀ vs s', s.uses vs = some s' →
        s'.engine.state = s.engine.state ∧ s'.engine.metrics = s.engine.metrics) := by
  have hl := lived_of_uses h
  generalize runsIn us = runs at hl ⊢
  obtain ⟨e,fired⟩ := s
  dsimp only at hl ⊢
  cases hl with
  | asNew settings =>
    refine ⟨Nat.zero_le _,iff_of_true rfl rfl,.inl rfl,iff_of_true rfl rfl,iff_of_true rfl rfl,
      Engine.check_asNew_ne_noEndpoints source sink settings,?_,?_,?_,?_⟩
    · exact iff_of_false Bool.false_ne_true Bool.false_ne_true
    · exact iff_of_false Bool.false_ne_true Bool.false_ne_true
    · intro _
      refine ⟨fun _ hv => Engine.startAlong_asNew_of_invalid hv,?_⟩
      intro good hv
      have hcheck := Engine.check_asNew source sink good
      rw [hv] at hcheck
      exact ⟨hcheck,rfl⟩
    · intro ht
      cases ht
  | spent hs hr hp hst =>
    have hidle := hs.not_idle
    have hrefused := Engine.check_of_not_idle hidle
    refine ⟨Nat.le_refl _,iff_of_false hidle (by simp),.inr hs.terminal,?_,?_,?_,?_,?_,?_,?_⟩
    · exact iff_of_false (by simp [hs.source]) hidle
    · exact iff_of_false (by simp [hs.sink]) hidle
    · rw [hrefused]
      simp
    · exact iff_of_true hs.startedAt hs.terminal
    · exact iff_of_true hs.finishedAt hs.terminal
    · intro hi
      exact absurd hi hidle
    · intro _
      refine ⟨fun _ _ _ _ _ _ => Engine.startAlong_of_refused hrefused,?_⟩
      intro vs s' hu
      exact spent_of_uses hs hu

/-- A start without room in the queue is refused, the next one runs, and one more is refused. -/
def refusedRunRefused (a b : Batch) : List Use :=
  [.configures { queueCapacity := 0 }, .starts [] ⟨0,0⟩ ⟨0,0⟩, .configures { queueCapacity := 1 },
    .starts (relay a b) ⟨1,0⟩ ⟨2,0⟩, .cancels, .starts [] ⟨3,0⟩ ⟨3,0⟩]

theorem runs_at_most_once_refusedRunRefused :
    let us := refusedRunRefused (oneCell 3) (oneCell 5)
    ∃ s, (ofEndpoints () ()).uses us = some s ∧ (runsIn us).length ≤ 1 ∧
      s.engine.state = .completed ∧ s.engine.source = none ∧
      s.engine.metrics.finishedAt.isSome = true ∧
      s.engine.startAlong s.fired [] ⟨4,0⟩ ⟨4,0⟩ =
        some (.error (.validation (.notIdle .completed)), s.engine) := by
  intro us
  have hs : ∃ s, (ofEndpoints () ()).uses us = some s ∧ s.engine.state = .completed ∧
      s.engine.source = none := ⟨_,rfl,rfl,rfl⟩
  obtain ⟨s,hs,hst,hsource⟩ := hs
  obtain ⟨hone,_,_,_,_,_,_,hfinished,_,hend⟩ := runs_at_most_once hs
  have ht : s.engine.state.isTerminal = true := by rw [hst]; rfl
  refine ⟨s,hs,hone,hst,hsource,hfinished.mpr ht,?_⟩
  rw [((hend ht).1 _ _ _ _ _ _).mpr ⟨rfl,rfl,rfl⟩, hst]

end Session
end Tabular.Transfer
