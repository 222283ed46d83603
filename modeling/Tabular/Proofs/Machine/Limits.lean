import Tabular.Proofs.Config.Encoding
import Tabular.Proofs.Inference.Cap
import Tabular.Proofs.Machine.Size
import Tabular.Proofs.Pipeline.Settings

/-! # Accepted sizes and the limits of a machine

Validation refuses a size of zero and looks no further. So accepted sizes are all that they have to
be from below, and above they go beyond every limit. An inference then panics before it samples, and
an engine is stranded: it stays in its running state without its endpoints. Nothing else leaves an
engine so.
-/
namespace Tabular.Machine
open Transfer
open Delimited (Chunk Reading readings)
open Inference (Surroundings answer one_le_of_validate one_le_workerCount)

/-- Whether the sizes of an inference go beyond a limit; the workers are looked at first. -/
def TooLarge (o : Options) (processors : Nat) : Excess → Prop
  | .product => 2 ^ 63 ≤ o.workerCount processors
  | .allocation => o.workerCount processors < 2 ^ 63 ∧ 2 ^ 60 ≤ o.batchSize
  | .places => False

inductive Call where
  | configure (settings : Settings)
  | start (cancelled : Bool) (startedAt finishedAt : Calendar.Instant)

/-- Whether a call starts an engine that only the limit of queues keeps from running. -/
def Strands {σ κ : Type} (e : Engine σ κ) : Call → Prop
  | .configure _ => False
  | .start .. => (∃ ends, e.check = .ok ends) ∧ 2 ^ 61 ≤ e.settings.queueCapacity

section Calls
variable {σ κ : Type} [Pullable σ] [Pushable κ]

def call (e : Engine σ κ) : Call → Engine σ κ
  | .configure settings => e.withSettings settings
  | .start cancelled startedAt finishedAt => (start e cancelled startedAt finishedAt).engine

def calls (e : Engine σ κ) (cs : List Call) : Engine σ κ := cs.foldl call e

end Calls

/-! ## Sizes -/

section Sizes
variable {o : Options} {settings : Settings} {s : Surroundings} {cancelled : Bool}
variable {processors : Nat} {x : Excess} {rs : List Reading} {input : List Chunk}

theorem reserve_eq_error_iff : reserve o processors rs = .error x ↔
    (∃ record, answer rs 0 = .record record) ∧ TooLarge o processors x := by
  unfold reserve
  split
  · next record fired rest =>
    have hrecord : ∃ found, answer (⟨.record record,fired⟩ :: rest) 0 = .record found :=
      ⟨record,rfl⟩
    simp only [hrecord, true_and]
    by_cases hw : o.workerCount processors < 2 ^ 63
    · rw [within_of_le (product_le_wordMax.mpr hw)]
      by_cases hb : o.batchSize < 2 ^ 60
      · rw [within_of_le (bytes_le_bytesMax.mpr hb)]
        cases x <;> simp [TooLarge, bind, Except.bind, pure, Except.pure] <;> omega
      · rw [within_of_lt (bytesMax_lt_bytes.mpr (Nat.not_lt.mp hb))]
        cases x <;> simp [TooLarge, bind, Except.bind] <;> omega
    · rw [within_of_lt (wordMax_lt_product.mpr (Nat.not_lt.mp hw))]
      cases x <;> simp [TooLarge, bind, Except.bind] <;> omega
  · next hnone =>
    simp only [reduceCtorEq, false_iff, not_and]
    rintro ⟨record,hrecord⟩
    cases rs with
    | nil => cases hrecord
    | cons r rest =>
      obtain ⟨item,fired⟩ := r
      obtain rfl : item = .record record := hrecord
      exact absurd rfl (hnone record fired rest)

/-- An inference under accepted options panics exactly if its sizes are too large where a first
record is found. -/
theorem infer_eq_error_iff (ho : o.validate = .ok ()) :
    infer o s cancelled input = .error x ↔ cancelled = false ∧
      (∃ delimiter record, o.delimiterByte = .ok delimiter ∧
        answer (readings delimiter input) 0 = .record record) ∧ TooLarge o s.processors x := by
  obtain ⟨delimiter,hd⟩ := Options.delimiterByte_of_validate ho
  cases cancelled with
  | true =>
    have hcheck : Inference.check o true = .error .cancelled := by
      simp [Inference.check, ho, bind, Except.bind, throw, throwThe, MonadExceptOf.throw]
    simp [infer, hcheck]
  | false =>
    have hcheck : Inference.check o false = .ok delimiter := by
      simp [Inference.check, ho, hd, bind, Except.bind]
    simp [infer, hcheck, hd, map_eq_error_iff, reserve_eq_error_iff]

theorem validate_resized (ho : o.validate = .ok ()) {workers batch : Nat} (hw : 0 < workers)
    (hb : 0 < batch) :
    { o with workers := some workers, batchSize := batch }.validate = .ok () := by
  obtain ⟨delimiter,hd⟩ := Options.delimiterByte_of_validate ho
  have hd' : ({ o with workers := some workers, batchSize := batch } : Options).delimiterByte =
      .ok delimiter := hd
  have hm : o.maxRows ≠ 0 := by have := (one_le_of_validate ho).1; omega
  simp [Options.validate, hd', hm, hb.ne', hw.ne', bind, Except.bind, pure, Except.pure]

theorem settings_validate_iff : settings.validate = .ok () ↔ 0 < settings.queueCapacity := by
  unfold Settings.validate
  split
  · next h => simp [h]
  · next h => simp [Nat.pos_of_ne_zero h]

end Sizes

/-! ## Engines -/

section Engines
variable {σ κ : Type} [Pullable σ] [Pushable κ] {e : Engine σ κ} {source : σ} {sink : κ}
variable {cancelled : Bool} {startedAt finishedAt : Calendar.Instant} {c : Call} {cs : List Call}

/-- A start that strands its engine leaves it running without endpoints, and else is as if there
were no limits. -/
theorem start_cases (e : Engine σ κ) (cancelled : Bool) (startedAt finishedAt : Calendar.Instant) :
    (Strands e (.start cancelled startedAt finishedAt) ∧
      start e cancelled startedAt finishedAt = .panicked .places { e with
        source := none, sink := none, state := .running
        metrics := { startedAt := some startedAt } }) ∨
    (¬ Strands e (.start cancelled startedAt finishedAt) ∧
      start e cancelled startedAt finishedAt =
        .ended (e.start cancelled startedAt finishedAt)) := by
  cases hc : e.check with
  | error cause =>
    refine .inr ⟨fun h => ?_,by simp only [start, hc]⟩
    obtain ⟨⟨ends,hends⟩,_⟩ := h
    rw [hc] at hends
    cases hends
  | ok ends =>
    by_cases hq : e.settings.queueCapacity < 2 ^ 61
    · refine .inr ⟨fun h => Nat.not_lt.mpr h.2 hq,?_⟩
      simp only [start, hc, within_of_le (le_placesMax.mpr hq)]
    · have hlarge := Nat.not_lt.mp hq
      refine .inl ⟨⟨⟨ends,hc⟩,hlarge⟩,?_⟩
      simp only [start, hc, within_of_lt (placesMax_lt.mpr hlarge)]

theorem state_start_ne_running (h : e.state ≠ .running) :
    (e.start cancelled startedAt finishedAt).engine.state ≠ .running := by
  unfold Engine.start
  cases e.check with
  | error cause => exact h
  | ok ends =>
    intro hrunning
    have hterminal := Run.isTerminal_stateOf
      (Scene.play e.settings.queueCapacity cancelled ends.1 ends.2).run.result
    rw [show Run.stateOf _ = State.running from hrunning] at hterminal
    cases hterminal

@[simp] theorem call_configure (e : Engine σ κ) (settings : Settings) :
    call e (.configure settings) = e.withSettings settings := rfl

@[simp] theorem call_start (e : Engine σ κ) (cancelled : Bool)
    (startedAt finishedAt : Calendar.Instant) : call e (.start cancelled startedAt finishedAt) =
      (start e cancelled startedAt finishedAt).engine := rfl

theorem call_running_iff (h : e.state ≠ .running) :
    (call e c).state = .running ↔ Strands e c := by
  cases c with
  | configure settings => simp [Engine.withSettings, Strands, h]
  | start cancelled startedAt finishedAt =>
    rcases start_cases e cancelled startedAt finishedAt with ⟨hs,hstart⟩ | ⟨hs,hstart⟩
    · simp [hstart, Start.engine, hs]
    · simp [hstart, Start.engine, hs, state_start_ne_running h]

/-- What it is for an engine to have lost its endpoints in a start. -/
structure Stranded (e : Engine σ κ) : Prop where
  running : e.state = .running
  source : e.source = none
  sink : e.sink = none

omit [Pullable σ] [Pushable κ] in
theorem check_of_running (h : e.state = .running) :
    e.check = .error (.validation (.notIdle .running)) := by
  rw [Engine.check_of_not_idle (by simp [h]), h]

theorem start_of_running (h : e.state = .running) :
    start e cancelled startedAt finishedAt =
      .ended ⟨.error (.validation (.notIdle .running)),e,none⟩ := by
  have hc := check_of_running h
  simp only [start, hc, Engine.start]

theorem stranded_of_strands (h : Strands e c) : Stranded (call e c) := by
  cases c with
  | configure settings => cases h
  | start cancelled startedAt finishedAt =>
    rcases start_cases e cancelled startedAt finishedAt with ⟨_,hstart⟩ | ⟨hs,_⟩
    · rw [call_start, hstart]
      exact ⟨rfl,rfl,rfl⟩
    · exact absurd h hs

theorem Stranded.call (h : Stranded e) (c : Call) : Stranded (call e c) := by
  cases c with
  | configure settings => exact ⟨h.running,h.source,h.sink⟩
  | start cancelled startedAt finishedAt =>
    rw [call_start, start_of_running h.running]
    exact h

theorem calls_concat (e : Engine σ κ) (cs : List Call) (c : Call) :
    calls e (cs ++ [c]) = call (calls e cs) c := by
  simp [calls]

/-- Along any calls, an engine that was not running is found running exactly if one of them stranded
it, and then it is without its endpoints. -/
theorem calls_running (h : e.state ≠ .running) (cs : List Call) :
    ((calls e cs).state = .running ↔
      ∃ before c after, cs = before ++ c :: after ∧ Strands (calls e before) c) ∧
    ((calls e cs).state = .running → Stranded (calls e cs)) := by
  induction cs using List.reverseRecOn with
  | nil => simp [calls, h]
  | append_singleton cs c ih =>
    obtain ⟨hiff,hstranded⟩ := ih
    rw [calls_concat]
    by_cases hr : (calls e cs).state = .running
    -- no call gets a stranded engine going again
    · have hlast := (hstranded hr).call c
      obtain ⟨before,c',after,rfl,hs⟩ := hiff.mp hr
      exact ⟨⟨fun _ => ⟨before,c',after ++ [c],by simp,hs⟩,fun _ => hlast.running⟩,fun _ => hlast⟩
    -- only the last call can have stranded it, or it would have been running before
    · have hcall := call_running_iff (c := c) hr
      refine ⟨hcall.trans ⟨fun hs => ⟨cs,c,[],rfl,hs⟩,?_⟩,
        fun hlast => stranded_of_strands (hcall.mp hlast)⟩
      rintro ⟨before,c',after,hsplit,hs⟩
      rcases List.eq_nil_or_concat after with rfl | ⟨rest,last,rfl⟩
      · obtain ⟨rfl,hc⟩ := List.append_inj' hsplit rfl
        cases hc
        exact hs
      · rw [List.concat_eq_append, ← List.cons_append, ← List.append_assoc] at hsplit
        obtain ⟨rfl,_⟩ := List.append_inj' hsplit rfl
        exact absurd (hiff.mpr ⟨before,c',rest,rfl,hs⟩) hr

end Engines

/-- Sizes that validation accepts are all that they have to be from below, and stay accepted however
large they get. As far as the three limits go, an inference under accepted options panics exactly if
its workers or its batches go beyond theirs where a first record is found, and else comes to what it
comes to without limits; nothing is said of the memory and the threads that it asks for below them,
nor of the slots that the queue to its workers lays out. A start with accepted settings leaves its
engine running exactly if the queue goes beyond its limit, and else is a start without limits.
Whatever is done with an engine, it is found running exactly if a start has stranded it; then its
endpoints are gone and each start is refused. -/
theorem accepted_sizes_against_limits {o : Options} {settings : Settings}
    (ho : o.validate = .ok ()) (hs : settings.validate = .ok ()) :
    (∀ processors width batches,
      0 < (Inference.Pool.start (o.workerCount processors) width batches).capacity) ∧
    0 < o.batchSize ∧ 0 < settings.queueCapacity ∧
    (∀ workers batch places, 0 < workers → 0 < batch → 0 < places →
      { o with workers := some workers, batchSize := batch }.validate = .ok () ∧
      { settings with queueCapacity := places }.validate = .ok ()) ∧
    (∀ s cancelled input,
      (∀ x, infer o s cancelled input = .error x ↔ cancelled = false ∧
        (∃ delimiter record, o.delimiterByte = .ok delimiter ∧
          answer (readings delimiter input) 0 = .record record) ∧ TooLarge o s.processors x) ∧
      ∀ result, infer o s cancelled input = .ok result →
        result = Inference.infer o s cancelled input) ∧
    ∀ {σ κ : Type} [Pullable σ] [Pushable κ] (source : σ) (sink : κ),
      let e := (Engine.ofEndpoints source sink).withSettings settings
      (∀ cancelled startedAt finishedAt,
        ((start e cancelled startedAt finishedAt).engine.state = .running ↔
          2 ^ 61 ≤ settings.queueCapacity) ∧
        (settings.queueCapacity < 2 ^ 61 → start e cancelled startedAt finishedAt =
          .ended (e.start cancelled startedAt finishedAt))) ∧
      ∀ cs, ((calls e cs).state = .running ↔
          ∃ before c after, cs = before ++ c :: after ∧ Strands (calls e before) c) ∧
        ((calls e cs).state = .running → Stranded (calls e cs) ∧
          ∀ cancelled startedAt finishedAt, start (calls e cs) cancelled startedAt finishedAt =
            .ended ⟨.error (.validation (.notIdle .running)),calls e cs,none⟩) := by
  refine ⟨fun processors _ _ => ?_,(one_le_of_validate ho).2,settings_validate_iff.mp hs,
    fun workers batch places hw hb hp => ⟨validate_resized ho hw hb,settings_validate_iff.mpr hp⟩,
    fun s cancelled input => ⟨fun x => infer_eq_error_iff ho,fun result => infer_eq_ok⟩,
    fun source sink => ?_⟩
  · have hone := one_le_workerCount o processors
    change 0 < 2 * o.workerCount processors
    omega
  · intro e
    have hnew : e.state ≠ .running := by simp [e, Engine.withSettings, Engine.ofEndpoints]
    have hcheck : e.check = .ok (source,sink) := by
      rw [Engine.check_asNew, hs]
      rfl
    have hstrands (cancelled : Bool) (startedAt finishedAt : Calendar.Instant) :
        Strands e (.start cancelled startedAt finishedAt) ↔ 2 ^ 61 ≤ settings.queueCapacity :=
      and_iff_right ⟨_,hcheck⟩
    refine ⟨fun cancelled startedAt finishedAt => ⟨?_,fun hq => ?_⟩,fun cs => ?_⟩
    · rw [← call_start, call_running_iff hnew, hstrands]
    · rcases start_cases e cancelled startedAt finishedAt with ⟨h,_⟩ | ⟨_,hstart⟩
      · exact absurd ((hstrands _ _ _).mp h) (Nat.not_le.mpr hq)
      · exact hstart
    · obtain ⟨hiff,hstranded⟩ := calls_running hnew cs
      exact ⟨hiff,fun hr => ⟨hstranded hr,fun _ _ _ => start_of_running hr⟩⟩

/-- The greatest sizes within the three limits; whether there are so many threads and so much memory
is another question. -/
theorem accepted_sizes_against_limits_greatest :
    let o : Options := { workers := some (2 ^ 63 - 1), batchSize := 2 ^ 60 - 1 }
    let settings : Settings := { queueCapacity := 2 ^ 61 - 1 }
    let input : List Chunk := [.bytes [97, 10, 49, 10]]
    let e := (Engine.ofEndpoints (Source.memory ⟨⟨[],.empty⟩,[],false⟩)
      ({} : MemorySink)).withSettings settings
    o.validate = .ok () ∧ settings.validate = .ok () ∧
      (∃ result, infer o ⟨1,"now"⟩ false input = .ok result ∧
        result = Inference.infer o ⟨1,"now"⟩ false input) ∧
      start e false ⟨0,0⟩ ⟨1,0⟩ = .ended (e.start false ⟨0,0⟩ ⟨1,0⟩) := by
  intro o settings input e
  obtain ⟨_,_,_,_,hinfer,hstart⟩ := @accepted_sizes_against_limits o settings rfl rfl
  obtain ⟨herror,hok⟩ := hinfer ⟨1,"now"⟩ false input
  refine ⟨rfl,rfl,?_,((hstart _ _).1 _ _ _).2 (by decide)⟩
  cases hx : infer o ⟨1,"now"⟩ false input with
  | ok result => exact ⟨result,rfl,hok result hx⟩
  | error x =>
    obtain ⟨_,_,hlarge⟩ := (herror x).mp hx
    cases x <;> simp [TooLarge, o, Options.workerCount] at hlarge

/-- Settings that pass, with every size one step beyond its limit. -/
theorem accepted_settings_beyond_limits :
    let c : Config := {
      source := ⟨⟨"in.csv"⟩,some .csv⟩, sink := ⟨⟨"out.csv"⟩,some .csv⟩
      inference := { workers := some (2 ^ 63), batchSize := 2 ^ 60 }
      transfer := { queueCapacity := 2 ^ 61 } }
    let oneWorker : Options := { c.inference with workers := some 1 }
    let input : List Chunk := [.bytes [97, 10, 49, 10]]
    let e := (Engine.ofEndpoints (Source.memory ⟨⟨[],.empty⟩,[],false⟩)
      ({} : MemorySink)).withSettings c.transfer
    c.validate = .ok () ∧ c.FitsWords ∧ oneWorker.validate = .ok () ∧
      infer c.inference ⟨1,"now"⟩ false input = .error .product ∧
      infer oneWorker ⟨1,"now"⟩ false input = .error .allocation ∧
      ∃ stranded, start e false ⟨0,0⟩ ⟨1,0⟩ = .panicked .places stranded ∧
        Stranded stranded := by
  intro c oneWorker input e
  have hwords : c.FitsWords := by
    refine ⟨⟨?_,?_,?_⟩,?_,?_,?_⟩ <;> simp [c, Number.Decimal.nat64Max]
  have hdefault : ({} : Options).validate = .ok () := rfl
  have hsizes : c.inference.validate = .ok () :=
    validate_resized hdefault (Nat.two_pow_pos 63) (Nat.two_pow_pos 60)
  have hone : oneWorker.validate = .ok () :=
    validate_resized hdefault Nat.one_pos (Nat.two_pow_pos 60)
  have hplaces : c.transfer.validate = .ok () := settings_validate_iff.mpr (Nat.two_pow_pos 61)
  have hvalid : c.validate = .ok () :=
    Config.validate_eq_ok_iff.mpr ⟨⟨_,rfl⟩,⟨_,rfl⟩,by decide,hsizes,hplaces,by decide⟩
  have hproduct : TooLarge c.inference 1 .product := by simp [TooLarge, c, Options.workerCount]
  have hallocation : TooLarge oneWorker 1 .allocation := by
    simp [TooLarge, oneWorker, c, Options.workerCount]
  have hfirst : ∃ record, answer (readings 44 input) 0 = .record record := ⟨_,rfl⟩
  have hcheck : e.check = .ok (Source.memory ⟨⟨[],.empty⟩,[],false⟩,{}) := by
    rw [Engine.check_asNew, hplaces]
    rfl
  have hstrands : Strands e (.start false ⟨0,0⟩ ⟨1,0⟩) := ⟨⟨_,hcheck⟩,Nat.le_refl _⟩
  obtain ⟨record,hrecord⟩ := hfirst
  refine ⟨hvalid,hwords,hone,
    (infer_eq_error_iff hsizes).mpr ⟨rfl,⟨44,record,rfl,hrecord⟩,hproduct⟩,
    (infer_eq_error_iff hone).mpr ⟨rfl,⟨44,record,rfl,hrecord⟩,hallocation⟩,?_⟩
  rcases start_cases e false ⟨0,0⟩ ⟨1,0⟩ with ⟨_,hstart⟩ | ⟨hs,_⟩
  · exact ⟨_,hstart,rfl,rfl,rfl⟩
  · exact absurd hstrands hs

end Tabular.Machine
