import Tabular.Proofs.Inference.Progress
import Tabular.Proofs.Inference.Sampling
import Tabular.Proofs.Inference.Columns
import Tabular.Proofs.Delimited.Records
import Tabular.Proofs.Machine.Size
import Mathlib.Data.List.Perm.Basic

/-! # Inference does not depend on the pool

What a pool finds is what one look at the sampled rows in order gives, so neither the number of
workers nor the size of the batches nor the schedule shows in the fields of a schema, in the number
of rows it was inferred from, or in the error. A size that goes beyond the limits of the machine
does show: the inference then panics.
-/
namespace Tabular.Inference
open Delimited (Chunk Reading)
open Schema (ColumnState Field)

theorem flatMap_range_single {α : Type} (l : List α) (k n : Nat) :
    (List.range n).flatMap (fun i => if k = i then l else []) = if k < n then l else [] := by
  induction n with
  | zero => rfl
  | succ n ih =>
    rw [List.range_succ, List.flatMap_append, ih]
    by_cases h : k < n
    · have hne : k ≠ n := by omega
      simp [h, hne, Nat.lt_succ_of_lt h]
    · by_cases he : k = n
      · simp [he]
      · have hn : ¬ k < n + 1 := by omega
        simp [h, he, hn]

/-- What the workers have received is, all together, what has been received. -/
theorem rowsReceivedBy_perm {count : Nat} {ds : List Delivery} (h : ∀ d ∈ ds, d.1 < count) :
    ((List.range count).flatMap fun i => rowsReceivedBy i ds).Perm (rowsReceived ds) := by
  induction ds with
  | nil => simp [rowsReceivedBy, rowsReceived]
  | cons d ds ih =>
    have hd := h d List.mem_cons_self
    have hperm := ih fun d hmem => h d (List.mem_cons_of_mem _ hmem)
    have hcons (i : Nat) : rowsReceivedBy i (d :: ds) =
        (if d.1 = i then d.2 else []) ++ rowsReceivedBy i ds := by
      by_cases hi : d.1 = i <;> simp [rowsReceivedBy, hi]
    simp only [hcons]
    refine (List.flatMap_append_perm _ _ _).symm.trans ?_
    rw [flatMap_range_single, if_pos hd]
    exact hperm.append_left d.2

/-- What an inference finds: the fields, and the number of rows they were inferred from. -/
def Outcome.findings (x : Outcome) : List Field × Nat := (x.schema.fields, x.rowsSampled)

/-- What one look at the rows of a stream finds, without a pool. -/
def findingsOf (o : Options) (rs : List Reading) : Except Error (List Field × Nat) :=
  match rs with
  | [] => .ok ([], 0)
  | first :: rest => match first.item with
    | .finished => .ok ([], 0)
    | .fault f => .error (.delimited f)
    | .panic text => .error (.taskFailed "Inference" text)
    | .record record =>
      let (names, rest) := openRecords o first record rest
      (Sample.rowsFrom names.length o.maxRows rest).map fun rows =>
        (fieldsOf o names rows, rows.length)

theorem observeRow_pool (o : Options) (w : Option Nat) (b : Nat) (s : List ColumnState)
    (row : Row) :
    observeRow { o with workers := w, batchSize := b } s row = observeRow o s row := by
  induction s generalizing row with
  | nil => rfl
  | cons a s ih =>
    cases row with
    | nil => rfl
    | cons raw row =>
      have hd : Delimited.detect { o with workers := w, batchSize := b } raw =
          Delimited.detect o raw := rfl
      simp only [observeRow, hd, ih]

theorem observeRows_pool (o : Options) (w : Option Nat) (b : Nat) (s : List ColumnState)
    (rows : List Row) :
    observeRows { o with workers := w, batchSize := b } s rows = observeRows o s rows := by
  have h : observeRow { o with workers := w, batchSize := b } = observeRow o := by
    funext s row
    exact observeRow_pool o w b s row
  rw [observeRows, h]
  rfl

theorem findingsOf_pool (o : Options) (w : Option Nat) (b : Nat) (rs : List Reading) :
    findingsOf { o with workers := w, batchSize := b } rs = findingsOf o rs := by
  unfold findingsOf openRecords fieldsOf
  simp only [observeRows_pool]

theorem one_le_workerCount (o : Options) (available : Nat) : 1 ≤ o.workerCount available :=
  Nat.le_max_left _ _

theorem openRecords_quiet {o : Options} {first : Reading} {record : Delimited.Record}
    {rest : List Reading} (h : ∀ r ∈ first :: rest, r.fired = false) :
    ∀ r ∈ (openRecords o first record rest).2, r.fired = false := by
  unfold openRecords
  split
  · exact fun r hr => h r (List.mem_cons_of_mem _ hr)
  · exact h

/-- The states of a sample that succeeds are those of one look at its rows. -/
theorem settle_findings {o : Options} {s : Surroundings} {names : List String} {rs : List Reading}
    (h : ∀ r ∈ rs, r.fired = false) (states : List ColumnState)
    (hs : states = observeRows o (blankStates names.length)
      (Sample.take o names.length false rs).batches.flatten) :
    (settle o s names (Sample.take o names.length false rs) states).map Outcome.findings =
      (Sample.rowsFrom names.length o.maxRows rs).map fun rows =>
        (fieldsOf o names rows, rows.length) := by
  have hquiet := Sample.take_quiet o names.length h
  cases hrows : Sample.rowsFrom names.length o.maxRows rs with
  | error e =>
    rw [hrows] at hquiet
    simp only [settle, hquiet]
    rfl
  | ok rows =>
    rw [hrows] at hquiet
    obtain ⟨rows',hrows',_,hb⟩ := Sample.take_ok hquiet
    obtain rfl : rows = rows' := Except.ok.inj (hrows.symm.trans hrows')
    subst hs
    simp only [settle, hquiet, hb]
    rfl

/-- Left alone, an inference finds what one look at the rows does, whatever the schedule. -/
theorem inferRecordsAlong_findings {o : Options} {s : Surroundings} {moves : List Move}
    {rs : List Reading} {x : Except Error Outcome} (h : ∀ r ∈ rs, r.fired = false)
    (hx : inferRecordsAlong o s moves rs = some x) :
    x.map Outcome.findings = findingsOf o rs := by
  cases rs with
  | nil =>
    cases hx
    rfl
  | cons first rest =>
    have hf : first.fired = false := h first List.mem_cons_self
    unfold inferRecordsAlong sampleRecords at hx
    unfold findingsOf
    cases hi : first.item with
    | finished =>
      simp only [hi] at hx ⊢
      cases hx
      rfl
    | fault f =>
      simp only [hi] at hx ⊢
      cases hx
      rfl
    | panic text =>
      simp only [hi] at hx ⊢
      cases hx
      rfl
    | record record =>
      simp only [hi, hf] at hx ⊢
      obtain ⟨states,hs,rfl⟩ := Option.map_eq_some_iff.mp hx
      exact settle_findings (openRecords_quiet h) states
        (Pool.observeAlong_eq_some (one_le_workerCount _ _) hs)

theorem check_pool {o : Options} {w : Option Nat} {b : Nat} (hw : w ≠ some 0) (hb : 1 ≤ b)
    (cancelled : Bool) :
    check { o with workers := w, batchSize := b } cancelled =
      check { o with workers := none, batchSize := 1 } cancelled := by
  have hb' : b ≠ 0 := by omega
  have hd : ({ o with workers := w, batchSize := b } : Options).delimiterByte =
      ({ o with workers := none, batchSize := 1 } : Options).delimiterByte := rfl
  simp [check, Options.validate, hd, hw, hb']

/-- The schedule does not show at all: along each that goes to the end, an inference comes to what
it comes to along the round-robin schedule. -/
theorem inferRecords_of_along {o : Options} {s : Surroundings} {moves : List Move}
    {rs : List Reading} {x : Except Error Outcome} (h : inferRecordsAlong o s moves rs = some x) :
    x = inferRecords o s rs := by
  unfold inferRecordsAlong at h
  unfold inferRecords
  cases hs : sampleRecords o rs with
  | error e =>
    simp only [hs] at h
    cases h
    rfl
  | ok found =>
    cases found with
    | none =>
      simp only [hs] at h
      cases h
      rfl
    | some sample =>
      have hcount := one_le_workerCount o s.processors
      simp only [hs] at h ⊢
      obtain ⟨states,hstates,rfl⟩ := Option.map_eq_some_iff.mp h
      rw [Pool.observeAlong_eq_some hcount hstates, Pool.observe_eq o hcount]

theorem infer_of_inferAlong {o : Options} {s : Surroundings} {cancelled : Bool} {moves : List Move}
    {input : List Chunk} {x : Except Error Outcome}
    (h : inferAlong o s cancelled moves input = some x) : x = infer o s cancelled input := by
  unfold inferAlong at h
  unfold infer
  cases hc : check o cancelled with
  | error e =>
    simp only [hc] at h
    cases h
    rfl
  | ok delimiter =>
    simp only [hc] at h
    exact inferRecords_of_along h

def CanMove (o : Options) (s : Surroundings) (rs : List Reading) (moves : List Move) : Prop :=
  ∀ names sample, sampleRecords o rs = .ok (some (names, sample)) →
    ((Pool.start (o.workerCount s.processors) names.length sample.batches).run o moves).isSome

theorem canMove_nil (o : Options) (s : Surroundings) (rs : List Reading) : CanMove o s rs [] :=
  fun _ _ _ => rfl

/-- An inference that has begun goes on to its end. -/
theorem exists_inferRecordsAlong {o : Options} {s : Surroundings} {rs : List Reading}
    {moves : List Move} (h : CanMove o s rs moves) :
    ∃ more x, inferRecordsAlong o s (moves ++ more) rs = some x := by
  unfold inferRecordsAlong
  cases hs : sampleRecords o rs with
  | error e => exact ⟨[],_,rfl⟩
  | ok found =>
    cases found with
    | none => exact ⟨[],_,rfl⟩
    | some sampled =>
      obtain ⟨names,sample⟩ := sampled
      obtain ⟨p,hp⟩ := Option.isSome_iff_exists.mp (h names sample hs)
      obtain ⟨more,p',hrun,hfinished⟩ := Pool.exists_finished (one_le_workerCount o s.processors) hp
      refine ⟨more,settle o s names sample (p'.merged names.length),?_⟩
      simp only [Pool.observeAlong, hrun, hfinished, if_true, Option.map_some]

theorem exists_inferAlong (o : Options) (s : Surroundings) (cancelled : Bool) (input : List Chunk) :
    ∃ moves x, inferAlong o s cancelled moves input = some x := by
  unfold inferAlong
  cases check o cancelled with
  | error e => exact ⟨[],_,rfl⟩
  | ok delimiter =>
    exact exists_inferRecordsAlong (canMove_nil o s (Delimited.readings delimiter input))

/-- Inferences from one input under options that differ in the pool find the same. -/
theorem infer_findings_pool {o : Options} {input : List Chunk} {w w' : Option Nat} {b b' : Nat}
    (s s' : Surroundings) (hc : .cancel ∉ input) (hw : w ≠ some 0) (hw' : w' ≠ some 0) (hb : 1 ≤ b)
    (hb' : 1 ≤ b') :
    (infer { o with workers := w, batchSize := b } s false input).map Outcome.findings =
      (infer { o with workers := w', batchSize := b' } s' false input).map Outcome.findings := by
  obtain ⟨moves,x,hx⟩ := exists_inferAlong { o with workers := w, batchSize := b } s false input
  obtain ⟨moves',x',hx'⟩ :=
    exists_inferAlong { o with workers := w', batchSize := b' } s' false input
  rw [← infer_of_inferAlong hx, ← infer_of_inferAlong hx']
  unfold inferAlong at hx hx'
  rw [check_pool hw hb] at hx
  rw [check_pool hw' hb'] at hx'
  cases hcheck : check { o with workers := none, batchSize := 1 } false with
  | error e =>
    simp only [hcheck] at hx hx'
    cases hx
    cases hx'
    rfl
  | ok delimiter =>
    simp only [hcheck] at hx hx'
    have hquiet : ∀ r ∈ Delimited.readings delimiter input, r.fired = false :=
      fun r hr => Delimited.readings_quiet hc hr
    rw [inferRecordsAlong_findings hquiet hx, inferRecordsAlong_findings hquiet hx',
      findingsOf_pool o w b, findingsOf_pool o w' b']

/-- Inference does not depend on the pool. At every moment of every schedule each batch sent is with
one worker, in the queue or still to be sent, in order, and a worker knows what the rows it received
show. The pool is never stuck before everyone is through, it is through after finitely many moves,
and then each row has been received by one worker, once, and the merged states are those of one look
at the values of each column in order. So, as long as the sizes are within the limits of the
machine, an inference comes to the same along every schedule, and with a token that never fires two
inferences from one input agree, whatever their workers and batch sizes. -/
theorem infer_independent_of_pool (o : Options) :
    (∀ count width batches moves p, 1 ≤ count → count < 2 ^ 63 →
      (Pool.start count width batches).run o moves = some p →
      let ds := (Pool.start count width batches).deliveries o moves
      ds.map (·.2) ++ p.queue ++ p.waiting = batches ∧
      (∀ d ∈ ds, d.1 < count) ∧
      (∀ i w, p.workers[i]? = some w → w.states = columnStates o width (rowsReceivedBy i ds)) ∧
      p.queue.length ≤ p.capacity ∧ p.capacity = 2 * count ∧ p.capacity ≤ Machine.wordMax ∧
      moves.length ≤ 2 * batches.length + 1 + count ∧
      (p.finished = false → ∃ m p', p.step o m = some p') ∧
      (p.finished = true → ds.map (·.2) = batches ∧
        ((List.range count).flatMap fun i => rowsReceivedBy i ds).Perm batches.flatten ∧
        p.merged width = columnStates o width batches.flatten)) ∧
    (∀ s cancelled input, o.workerCount s.processors < 2 ^ 63 → o.batchSize < 2 ^ 60 →
      (∃ moves x, inferAlong o s cancelled moves input = some x) ∧
      ∀ moves x, inferAlong o s cancelled moves input = some x →
        Machine.infer o s cancelled input = .ok x) ∧
    (∀ input w w' b b' s s',
      let first : Options := { o with workers := w, batchSize := b }
      let second : Options := { o with workers := w', batchSize := b' }
      .cancel ∉ input → w ≠ some 0 → w' ≠ some 0 → 1 ≤ b → 1 ≤ b' →
      first.workerCount s.processors < 2 ^ 63 → second.workerCount s'.processors < 2 ^ 63 →
      b < 2 ^ 60 → b' < 2 ^ 60 →
      ∃ x x', Machine.infer first s false input = .ok x ∧
        Machine.infer second s' false input = .ok x' ∧
        x.map Outcome.findings = x'.map Outcome.findings) := by
  refine ⟨?_,fun s cancelled input hw hb => ⟨exists_inferAlong o s cancelled input,?_⟩,?_⟩
  · intro count width batches moves p hcount hwords h
    have ha := Pool.accounted_of_run h
    have hlen := Pool.length_of_run h
    rw [Pool.movesLeft_start] at hlen
    refine ⟨ha.order,ha.receivers,fun i w hi => ?_,ha.bounded,ha.capacity,?_,by omega,
      Pool.exists_step ha hcount,fun hf => ?_⟩
    · rw [ha.states i w hi, observeRows_blankStates]
    · rw [ha.capacity, Nat.mul_comm]
      exact Machine.product_le_wordMax.mpr hwords
    · have hd := ha.delivered hcount hf
      have hperm := rowsReceivedBy_perm ha.receivers
      rw [rowsReceived_eq, hd] at hperm
      rw [ha.merged_of_finished hcount hf, observeRows_blankStates]
      exact ⟨hd,hperm,rfl⟩
  · intro moves x hx
    rw [infer_of_inferAlong hx]
    exact Machine.infer_of_lt hw hb
  · intro input w w' b b' s s' first second hc hw hw' hb hb' hcount hcount' hroom hroom'
    exact ⟨_,_,Machine.infer_of_lt hcount hroom,Machine.infer_of_lt hcount' hroom',
      infer_findings_pool s s' hc hw hw' hb hb'⟩

/-- Two workers take a batch each, the second one first, and leave. -/
def crossed : List Move :=
  [.send, .send, .receive 1, .close, .receive 0, .leave 0, .leave 1]

/-- Of two workers the second one takes the only batch. -/
def otherFirst : List Move := [.send, .close, .receive 1, .leave 0, .leave 1]

theorem infer_independent_of_pool_crossed :
    let o : Options := { hasHeader := false }
    let input : List Chunk := [.bytes [49, 10, 120, 10]]
    (∃ p, (Pool.start 2 1 [[["1"]], [["x"], [""]]]).run o crossed = some p ∧ p.finished = true ∧
      p.merged 1 = columnStates o 1 [["1"], ["x"], [""]]) ∧
    (∃ x, inferAlong o ⟨2,"now"⟩ false otherFirst input = some x ∧
      Machine.infer o ⟨2,"now"⟩ false input = .ok x) ∧
    ∃ x x', Machine.infer { o with workers := some 2, batchSize := 1 } ⟨8,"now"⟩ false input =
        .ok x ∧
      Machine.infer { o with workers := none, batchSize := 5 } ⟨1,"later"⟩ false input = .ok x' ∧
      x.map Outcome.findings = x'.map Outcome.findings := by
  intro o input
  obtain ⟨hpool,hsame,hinfer⟩ := infer_independent_of_pool o
  refine ⟨?_,?_,?_⟩
  · obtain ⟨_,_,_,_,_,_,_,_,hend⟩ :=
      hpool 2 1 [[["1"]], [["x"], [""]]] crossed _ (by decide) (by decide) rfl
    exact ⟨_,rfl,rfl,(hend rfl).2.2⟩
  · exact ⟨_,rfl,(hsame ⟨2,"now"⟩ false input (by decide) (by decide)).2 otherFirst _ rfl⟩
  · exact hinfer input (some 2) none 1 5 ⟨8,"now"⟩ ⟨1,"later"⟩ (by decide) (by decide) (by decide)
      (by decide) (by decide) (by decide) (by decide) (by decide) (by decide)

/-- A batch of more rows than there can be room for shows: there is no answer at all. -/
theorem batch_size_shows_beyond_room :
    let o : Options := { batchSize := 2 ^ 60 }
    let input : List Chunk := [.bytes [97, 10, 49, 10]]
    o.validate = .ok () ∧ Machine.infer o ⟨1,"now"⟩ false input = .error .allocation ∧
      ∃ x, Machine.infer { o with batchSize := 100 } ⟨1,"now"⟩ false input = .ok (.ok x) ∧
        x.rowsSampled = 1 :=
  ⟨rfl,rfl,_,rfl,rfl⟩

end Tabular.Inference
